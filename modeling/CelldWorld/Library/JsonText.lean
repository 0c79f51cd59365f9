import Mathlib.Algebra.Group.Nat.Defs
import CelldWorld.Library.TextCodec

/-! The JSON text of a value, as code units, and the value of a text. How a number is written
is a parameter. -/

namespace JsonText

open TextCodec

/-- What a JSON text stands for; the properties of an object come in the order of the text. -/
inductive Json (ν : Type)
  | null
  | boolean (value : Bool)
  | number (value : ν)
  | string (value : List UInt16)
  | array (items : List (Json ν))
  | object (fields : List (List UInt16 × Json ν))

def QUOTE : UInt16 := 0x22
def BACKSLASH : UInt16 := 0x5C
def OPEN_BRACE : UInt16 := 0x7B
def CLOSE_BRACE : UInt16 := 0x7D

def unit (c : Char) : UInt16 := UInt16.ofNat c.toNat
def ascii (text : String) : List UInt16 := text.toList.map unit

def isSpace (u : UInt16) : Bool := u = 0x20 || u = 0x09 || u = 0x0A || u = 0x0D

/-- A code unit that a number can be written with. -/
def isNumeral (u : UInt16) : Bool :=
  (0x30 ≤ u.toNat && u.toNat ≤ 0x39) || u = unit '+' || u = unit '-' || u = unit '.' ||
    u = unit 'e' || u = unit 'E'

/-- How numbers are written and read back. -/
structure Numerals (ν : Type) where
  print : ν → List UInt16
  read : List UInt16 → Option ν
  print_ne : ∀ value, print value ≠ []
  print_numeral : ∀ value, ∀ u ∈ print value, isNumeral u = true
  read_print : ∀ value, read (print value) = some value

def hexDigit (value : Nat) : UInt16 := UInt16.ofNat (if value < 10 then 0x30 + value else 0x57 + value)

def hexValue (u : UInt16) : Option Nat :=
  if 0x30 ≤ u.toNat ∧ u.toNat ≤ 0x39 then some (u.toNat - 0x30)
  else if 0x61 ≤ u.toNat ∧ u.toNat ≤ 0x66 then some (u.toNat - 0x57)
  else if 0x41 ≤ u.toNat ∧ u.toNat ≤ 0x46 then some (u.toNat - 0x37)
  else none

/-- The letters after a backslash that a text is written with, and the units they stand for. -/
def escapes : List (UInt16 × UInt16) :=
  [(0x08, unit 'b'), (0x09, unit 't'), (0x0A, unit 'n'), (0x0C, unit 'f'), (0x0D, unit 'r'),
    (QUOTE, QUOTE), (BACKSLASH, BACKSLASH)]

def unicodeEscape (u : UInt16) : List UInt16 :=
  [BACKSLASH, unit 'u', hexDigit (u.toNat / 0x1000), hexDigit (u.toNat / 0x100 % 0x10),
    hexDigit (u.toNat / 0x10 % 0x10), hexDigit (u.toNat % 0x10)]

def quoteUnit (u : UInt16) : List UInt16 :=
  match escapes.lookup u with
  | some letter => [BACKSLASH, letter]
  | none => if u.toNat < 0x20 ∨ isSurrogate u then unicodeEscape u else [u]

/-- The inside of a quoted text; only a surrogate without its partner is escaped. -/
def quoteUnits : List UInt16 → List UInt16
  | [] => []
  | [u] => quoteUnit u
  | high :: low :: rest =>
    if isHigh high && isLow low then high :: low :: quoteUnits rest
      else quoteUnit high ++ quoteUnits (low :: rest)

def quote (text : List UInt16) : List UInt16 := QUOTE :: quoteUnits text ++ [QUOTE]

/-- The unit that a letter after a backslash stands for. -/
def unescape (letter : UInt16) : Option UInt16 :=
  if letter = unit '/' then some letter else (escapes.find? fun escape => escape.2 = letter).map Prod.fst

def hexUnit (a b c d : UInt16) : Option UInt16 := do
  let a ← hexValue a
  let b ← hexValue b
  let c ← hexValue c
  let d ← hexValue d
  some (UInt16.ofNat (a * 0x1000 + b * 0x100 + c * 0x10 + d))

/-- The text up to the closing quote, and what follows it. -/
def readString : List UInt16 → Option (List UInt16 × List UInt16)
  | [] => none
  | first :: rest =>
    if first = QUOTE then some ([], rest)
    else if first = BACKSLASH then
      match rest with
      | [] => none
      | letter :: rest =>
        if letter = unit 'u' then
          match rest with
          | a :: b :: c :: d :: rest =>
            match hexUnit a b c d with
            | some u => (readString rest).map fun (text, rest) => (u :: text, rest)
            | none => none
          | _ => none
        else
          match unescape letter with
          | some u => (readString rest).map fun (text, rest) => (u :: text, rest)
          | none => none
    else if first.toNat < 0x20 then none
    else (readString rest).map fun (text, rest) => (first :: text, rest)

/-- A property set on an object: a second value of a key replaces the first. -/
def setField {κ α : Type} [DecidableEq κ] (fields : List (κ × α)) (field : κ × α) : List (κ × α) :=
  if fields.any (·.1 = field.1) then fields.map fun other => if other.1 = field.1 then field else other
  else fields ++ [field]

/-- The own properties of an object that is given these, one after the other. -/
def ownFields {κ α : Type} [DecidableEq κ] (fields : List (κ × α)) : List (κ × α) := fields.foldl setField []

section Text
variable {ν : Type} (numerals : Numerals ν)

mutual
def print : Json ν → List UInt16
  | .null => ascii "null"
  | .boolean value => ascii (if value then "true" else "false")
  | .number value => numerals.print value
  | .string value => quote value
  | .array items => unit '[' :: printItems items ++ [unit ']']
  | .object fields => OPEN_BRACE :: printFields fields ++ [CLOSE_BRACE]

def printItems : List (Json ν) → List UInt16
  | [] => []
  | [item] => print item
  | item :: next :: items => print item ++ unit ',' :: printItems (next :: items)

def printFields : List (List UInt16 × Json ν) → List UInt16
  | [] => []
  | [(key, value)] => quote key ++ unit ':' :: print value
  | (key, value) :: next :: fields =>
    quote key ++ unit ':' :: print value ++ unit ',' :: printFields (next :: fields)
end

def skip (text : List UInt16) : List UInt16 := text.dropWhile isSpace

/-- What follows an expected word. -/
def strip (word text : List UInt16) : Option (List UInt16) :=
  if word.isPrefixOf text then some (text.drop word.length) else none

mutual
/-- The value at the start of a text, and what follows it. -/
def readValue : Nat → List UInt16 → Option (Json ν × List UInt16)
  | 0, _ => none
  | fuel + 1, text =>
    match skip text with
    | [] => none
    | first :: rest =>
      if first = QUOTE then (readString rest).map fun (value, rest) => (.string value, rest)
      else if first = unit '[' then
        match skip rest with
        | [] => none
        | next :: after =>
          if next = unit ']' then some (.array [], after)
          else (readItems fuel rest).map fun (items, rest) => (.array items, rest)
      else if first = OPEN_BRACE then
        match skip rest with
        | [] => none
        | next :: after =>
          if next = CLOSE_BRACE then some (.object [], after)
          else (readFields fuel rest).map fun (fields, rest) => (.object (ownFields fields), rest)
      else if first = unit 'n' then (strip (ascii "ull") rest).map fun rest => (.null, rest)
      else if first = unit 't' then (strip (ascii "rue") rest).map fun rest => (.boolean true, rest)
      else if first = unit 'f' then (strip (ascii "alse") rest).map fun rest => (.boolean false, rest)
      else
        (numerals.read ((first :: rest).takeWhile isNumeral)).map fun value =>
          (.number value, (first :: rest).dropWhile isNumeral)

/-- The items of an array up to its closing bracket. -/
def readItems : Nat → List UInt16 → Option (List (Json ν) × List UInt16)
  | 0, _ => none
  | fuel + 1, text => do
    let (item, rest) ← readValue fuel text
    match skip rest with
    | [] => none
    | next :: rest =>
      if next = unit ']' then some ([item], rest)
      else if next = unit ',' then do
        let (items, rest) ← readItems fuel rest
        some (item :: items, rest)
      else none

/-- The properties of an object up to its closing brace. -/
def readFields : Nat → List UInt16 → Option (List (List UInt16 × Json ν) × List UInt16)
  | 0, _ => none
  | fuel + 1, text => do
    let opened ← strip [QUOTE] (skip text)
    let (key, rest) ← readString opened
    let rest ← strip [unit ':'] (skip rest)
    let (value, rest) ← readValue fuel rest
    match skip rest with
    | [] => none
    | next :: rest =>
      if next = CLOSE_BRACE then some ([(key, value)], rest)
      else if next = unit ',' then do
        let (fields, rest) ← readFields fuel rest
        some ((key, value) :: fields, rest)
      else none
end

/-- The value of a whole text. -/
def parse (text : List UInt16) : Option (Json ν) := do
  let (value, rest) ← readValue numerals (2 * text.length + 2) text
  if skip rest = [] then some value else none

end Text

section Strings
variable {u : UInt16} {text rest : List UInt16}

theorem hexValue_hexDigit {value : Nat} (digit : value < 16) : hexValue (hexDigit value) = some value := by
  have each : ∀ value : Fin 16, hexValue (hexDigit value) = some value.val := by decide
  exact each ⟨value, digit⟩

theorem hexUnit_digits : hexUnit (hexDigit (u.toNat / 0x1000)) (hexDigit (u.toNat / 0x100 % 0x10))
    (hexDigit (u.toNat / 0x10 % 0x10)) (hexDigit (u.toNat % 0x10)) = some u := by
  have small := u.toNat_lt
  have sum : u.toNat / 0x1000 * 0x1000 + u.toNat / 0x100 % 0x10 * 0x100 + u.toNat / 0x10 % 0x10 * 0x10 +
      u.toNat % 0x10 = u.toNat := by omega
  unfold hexUnit
  rw [hexValue_hexDigit (by omega), hexValue_hexDigit (by omega), hexValue_hexDigit (by omega),
    hexValue_hexDigit (by omega)]
  simp only [Option.bind_eq_bind, Option.bind_some, sum, UInt16.ofNat_toNat]

theorem readString_plain (printable : 0x20 ≤ u.toNat) (plain : u ≠ QUOTE ∧ u ≠ BACKSLASH) :
    readString (u :: rest) = (readString rest).map fun (text, rest) => (u :: text, rest) := by
  rw [readString.eq_def]
  simp only [if_neg plain.1, if_neg plain.2, if_neg (Nat.not_lt.mpr printable)]

theorem readString_closed : readString (QUOTE :: rest) = some ([], rest) := by
  rw [readString.eq_def]
  simp only [if_true]

/-- An escaped unit is read back. -/
theorem readString_quoteUnit : readString (quoteUnit u ++ rest) =
    (readString rest).map fun (text, rest) => (u :: text, rest) := by
  have letters : escapes.all (fun escape => escape.2 ≠ unit 'u' ∧ unescape escape.2 = some escape.1) =
      true := by decide
  have backslash : BACKSLASH ≠ QUOTE := by decide
  unfold quoteUnit
  split
  · rename_i letter found
    obtain ⟨before, after, split, -⟩ := List.lookup_eq_some_iff.mp found
    have member : (u, letter) ∈ escapes := by simp [split]
    obtain ⟨short, back⟩ := of_decide_eq_true (List.all_eq_true.mp letters _ member)
    rw [List.cons_append, List.cons_append, List.nil_append, readString.eq_def]
    simp only [if_neg backslash, if_neg short, back, if_true]
  · rename_i unescaped
    split
    · rw [unicodeEscape, readString.eq_def]
      simp only [List.cons_append, List.nil_append, if_neg backslash, if_true, hexUnit_digits]
    · rename_i printable
      rw [not_or, Nat.not_lt] at printable
      refine readString_plain printable.1 ⟨?_, ?_⟩ <;> rintro rfl <;> cases unescaped

theorem readString_quoteUnits : readString (quoteUnits text ++ QUOTE :: rest) = some (text, rest) := by
  fun_induction quoteUnits text with
  | case1 => exact readString_closed
  | case2 u => rw [readString_quoteUnit, readString_closed, Option.map_some]
  | case3 high low tail pair ih =>
    obtain ⟨⟨highLeast, highMost⟩, lowLeast, lowMost⟩ := pair_iff.mp pair
    have plain {u : UInt16} (surrogate : 0xD800 ≤ u.toNat) : u ≠ QUOTE ∧ u ≠ BACKSLASH := by
      constructor <;> rintro rfl <;> exact absurd surrogate (by decide)
    rw [List.cons_append, List.cons_append, readString_plain (by omega) (plain highLeast),
      readString_plain (by omega) (plain (by omega)), ih, Option.map_some, Option.map_some]
  | case4 high low tail apart ih => rw [List.append_assoc, readString_quoteUnit, ih, Option.map_some]

end Strings

/-- No object in the value holds a key twice. -/
inductive Json.Distinct {ν : Type} : Json ν → Prop
  | null : Distinct .null
  | boolean (value : Bool) : Distinct (.boolean value)
  | number (value : ν) : Distinct (.number value)
  | string (value : List UInt16) : Distinct (.string value)
  | array {items : List (Json ν)} (each : ∀ item ∈ items, Distinct item) : Distinct (.array items)
  | object {fields : List (List UInt16 × Json ν)} (keys : (fields.map Prod.fst).Nodup)
      (each : ∀ field ∈ fields, Distinct field.2) : Distinct (.object fields)

section Fields
variable {κ α : Type} [DecidableEq κ] {fields own : List (κ × α)} {field : κ × α}

theorem setField_new (fresh : field.1 ∉ fields.map Prod.fst) : setField fields field = fields ++ [field] := by
  have absent : fields.any (·.1 = field.1) = false :=
    List.any_eq_false.mpr fun other member same => by
      rw [decide_eq_true_eq] at same
      exact fresh (same ▸ List.mem_map_of_mem member)
  rw [setField, absent, if_neg nofun]

theorem foldl_setField (keys : ((own ++ fields).map Prod.fst).Nodup) :
    fields.foldl setField own = own ++ fields := by
  induction fields generalizing own with
  | nil => rw [List.foldl_nil, List.append_nil]
  | cons field fields ih =>
    have fresh : field.1 ∉ own.map Prod.fst := by
      rw [List.map_append, List.map_cons, List.nodup_append] at keys
      exact fun member => keys.2.2 _ member _ (.head _) rfl
    rw [List.foldl_cons, setField_new fresh, ih (by simpa using keys), List.append_assoc, List.singleton_append]

/-- An object that is given each key once has the properties it is given. -/
theorem ownFields_nodup (keys : (fields.map Prod.fst).Nodup) : ownFields fields = fields :=
  foldl_setField keys

end Fields

section Values
variable {ν : Type} {numerals : Numerals ν}

mutual
/-- How deep the reader descends into a value, item by item. -/
def depth : Json ν → Nat
  | .null | .boolean _ | .number _ | .string _ => 1
  | .array items => 1 + itemsDepth items
  | .object fields => 1 + fieldsDepth fields

def itemsDepth : List (Json ν) → Nat
  | [] => 0
  | item :: items => 1 + depth item + itemsDepth items

def fieldsDepth : List (List UInt16 × Json ν) → Nat
  | [] => 0
  | (_, value) :: fields => 1 + depth value + fieldsDepth fields
end

theorem skip_cons {u : UInt16} {text : List UInt16} (solid : isSpace u = false) :
    skip (u :: text) = u :: text := by
  rw [skip, List.dropWhile_cons_of_neg (by simp [solid])]

theorem numeral_solid {u : UInt16} (numeral : isNumeral u = true) : isSpace u = false ∧ u ∉
    [unit ']', QUOTE, unit '[', OPEN_BRACE, unit 'n', unit 't', unit 'f'] := by
  cases spaced : isSpace u with
  | true =>
    simp only [isSpace, Bool.or_eq_true, decide_eq_true_eq] at spaced
    rcases spaced with ((rfl | rfl) | rfl) | rfl <;> cases numeral
  | false =>
    refine ⟨rfl, fun member => ?_⟩
    simp only [List.mem_cons, List.not_mem_nil, or_false] at member
    rcases member with rfl | rfl | rfl | rfl | rfl | rfl | rfl <;> revert numeral <;> decide

/-- The text of a value starts with a unit that is no space and no closing bracket. -/
theorem print_first (value : Json ν) :
    ∃ first rest, print numerals value = first :: rest ∧ isSpace first = false ∧
    first ≠ unit ']' := by
  cases value with
  | null => exact ⟨_, _, rfl, by decide, by decide⟩
  | boolean value => cases value <;> exact ⟨_, _, rfl, by decide, by decide⟩
  | number value =>
    cases text : numerals.print value with
    | nil => exact absurd text (numerals.print_ne value)
    | cons first rest =>
      obtain ⟨solid, apart⟩ := numeral_solid (numerals.print_numeral value first (text ▸ .head _))
      exact ⟨first, rest, by rw [print, text], solid, fun same => apart (same ▸ .head _)⟩
  | string value => exact ⟨_, _, by rw [print]; rfl, by decide, by decide⟩
  | array items => exact ⟨_, _, by rw [print]; rfl, by decide, by decide⟩
  | object fields => exact ⟨_, _, by rw [print]; rfl, by decide, by decide⟩

theorem printItems_first (item : Json ν) (items : List (Json ν)) : ∃ first rest,
    printItems numerals (item :: items) = first :: rest ∧ isSpace first = false ∧ first ≠ unit ']' := by
  obtain ⟨first, rest, text, solid, apart⟩ := @print_first ν numerals item
  cases items with
  | nil => exact ⟨first, rest, by rw [printItems, text], solid, apart⟩
  | cons next items => exact ⟨first, _, by rw [printItems, text, List.cons_append], solid, apart⟩

theorem printFields_first (field : List UInt16 × Json ν) (fields : List (List UInt16 × Json ν)) : ∃ rest,
    printFields numerals (field :: fields) = QUOTE :: rest := by
  cases fields with
  | nil => exact ⟨_, by rw [printFields, quote, List.cons_append, List.cons_append]⟩
  | cons next fields =>
    exact ⟨_, by rw [printFields, quote, List.cons_append, List.cons_append, List.cons_append]⟩

/-- What follows a value does not go on with a number. -/
def Stops (rest : List UInt16) : Prop := ∀ u ∈ rest.head?, isNumeral u = false

theorem stops_cons {u : UInt16} {rest : List UInt16} (other : isNumeral u = false) : Stops (u :: rest) := by
  intro first same
  obtain rfl := Option.some.inj same
  exact other

theorem strip_append {word rest : List UInt16} : strip word (word ++ rest) = some rest := by
  rw [strip, if_pos (List.isPrefixOf_iff_prefix.mpr (List.prefix_append word rest)), List.drop_left]

theorem readString_quote {text rest : List UInt16} :
    readString (quoteUnits text ++ [QUOTE] ++ rest) = some (text, rest) := by
  rw [List.append_assoc, List.singleton_append, readString_quoteUnits]

theorem strip_quote {key rest : List UInt16} :
    strip [QUOTE] (skip (quote key ++ rest)) = some (quoteUnits key ++ [QUOTE] ++ rest) := by
  rw [quote, List.cons_append, List.cons_append, skip_cons (by decide)]
  exact @strip_append [QUOTE] _

theorem strip_colon {rest : List UInt16} : strip [unit ':'] (skip (unit ':' :: rest)) = some rest := by
  rw [skip_cons (by decide)]
  exact @strip_append [unit ':'] _

/-- The maximal run of numeral units is the number. -/
theorem readValue_number {value : ν} {fuel : Nat} {rest : List UInt16} (stops : Stops rest) :
    readValue numerals (fuel + 1) (print numerals (.number value) ++ rest) = some (.number value, rest) := by
  have numeral := numerals.print_numeral value
  have run : (numerals.print value ++ rest).takeWhile isNumeral = numerals.print value ∧
      (numerals.print value ++ rest).dropWhile isNumeral = rest := by
    rw [List.takeWhile_append_of_pos numeral, List.dropWhile_append_of_pos numeral]
    cases rest with
    | nil => exact ⟨List.append_nil _, rfl⟩
    | cons u rest =>
      have other : ¬ isNumeral u = true := by simp [stops u rfl]
      rw [List.takeWhile_cons_of_neg other, List.dropWhile_cons_of_neg other, List.append_nil]
      exact ⟨rfl, rfl⟩
  rw [print]
  cases text : numerals.print value with
  | nil => exact absurd text (numerals.print_ne value)
  | cons first tail =>
    obtain ⟨solid, apart⟩ := numeral_solid (numeral first (text ▸ .head _))
    simp only [List.mem_cons, List.not_mem_nil, or_false, not_or] at apart
    obtain ⟨-, quote, bracket, brace, n, t, f⟩ := apart
    rw [text] at run
    rw [List.cons_append] at run ⊢
    rw [readValue, skip_cons solid]
    simp only [if_neg quote, if_neg bracket, if_neg brace, if_neg n, if_neg t, if_neg f, run.1, run.2]
    rw [← text, numerals.read_print, Option.map_some]

mutual
/-- A printed value is read back, and what follows it is left. -/
theorem readValue_print :
    ∀ (value : Json ν) (fuel : Nat) (rest : List UInt16), value.Distinct → depth value ≤ fuel →
    Stops rest → readValue numerals fuel (print numerals value ++ rest) = some (value, rest)
  | value, 0, rest, _, deep, _ => by
    cases value <;> simp [depth] at deep
  | .null, fuel + 1, rest, _, _, _ => by
    have text : print numerals .null ++ rest = unit 'n' :: (ascii "ull" ++ rest) := by rw [print]; rfl
    rw [text, readValue, skip_cons (by decide)]
    simp only [strip_append]
    rfl
  | .boolean value, fuel + 1, rest, _, _, _ => by
    cases value with
    | true =>
      have text : print numerals (.boolean true) ++ rest = unit 't' :: (ascii "rue" ++ rest) := by rw [print]; rfl
      rw [text, readValue, skip_cons (by decide)]
      simp only [strip_append]
      rfl
    | false =>
      have text : print numerals (.boolean false) ++ rest = unit 'f' :: (ascii "alse" ++ rest) := by
        rw [print]; rfl
      rw [text, readValue, skip_cons (by decide)]
      simp only [strip_append]
      rfl
  | .number value, fuel + 1, rest, _, _, stops => readValue_number stops
  | .string value, fuel + 1, rest, _, _, _ => by
    rw [print, quote, List.cons_append, List.cons_append, readValue, skip_cons (by decide)]
    simp only [if_true, readString_quote, Option.map_some]
  | .array [], fuel + 1, rest, _, _, _ => by
    have text : print numerals (.array []) ++ rest = unit '[' :: unit ']' :: rest := by
      rw [print, printItems]; rfl
    rw [text, readValue, skip_cons (by decide)]
    simp only [skip_cons (show isSpace (unit ']') = false by decide)]
    rfl
  | .array (item :: items), fuel + 1, rest, distinct, deep, _ => by
    cases distinct with | array each =>
    have read := readItems_print (item :: items) fuel rest (List.cons_ne_nil _ _) each
      (by rw [depth] at deep; omega)
    obtain ⟨first, tail, text, solid, apart⟩ := @printItems_first ν numerals item items
    rw [print, List.cons_append, List.cons_append, List.append_assoc, List.singleton_append, readValue,
      skip_cons (by decide)]
    rw [text, List.cons_append] at read ⊢
    simp only [skip_cons solid, if_neg apart, read]
    rfl
  | .object [], fuel + 1, rest, _, _, _ => by
    have text : print numerals (.object []) ++ rest = OPEN_BRACE :: CLOSE_BRACE :: rest := by
      rw [print, printFields]; rfl
    rw [text, readValue, skip_cons (by decide)]
    simp only [skip_cons (show isSpace CLOSE_BRACE = false by decide)]
    rfl
  | .object (field :: fields), fuel + 1, rest, distinct, deep, _ => by
    cases distinct with | object keys each =>
    have read := readFields_print (field :: fields) fuel rest (List.cons_ne_nil _ _) each
      (by rw [depth] at deep; omega)
    obtain ⟨tail, text⟩ := @printFields_first ν numerals field fields
    rw [print, List.cons_append, List.cons_append, List.append_assoc, List.singleton_append, readValue,
      skip_cons (by decide)]
    rw [text, List.cons_append] at read ⊢
    simp only [skip_cons (show isSpace QUOTE = false by decide), read, Option.map_some, ownFields_nodup keys]
    rfl

theorem readItems_print : ∀ (items : List (Json ν)) (fuel : Nat) (rest : List UInt16), items ≠ [] →
    (∀ item ∈ items, item.Distinct) → itemsDepth items ≤ fuel →
    readItems numerals fuel (printItems numerals items ++ unit ']' :: rest) = some (items, rest)
  | [], _, _, some_, _, _ => absurd rfl some_
  | item :: items, 0, _, _, _, deep => by
    simp [itemsDepth] at deep
  | [item], fuel + 1, rest, _, distinct, deep => by
    have read := readValue_print item fuel (unit ']' :: rest) (distinct item (.head _))
      (by rw [itemsDepth] at deep; omega) (stops_cons (by decide))
    rw [printItems, readItems, read]
    simp only [Option.bind_eq_bind, Option.bind_some, skip_cons (show isSpace (unit ']') = false by decide),
      if_true]
  | item :: next :: items, fuel + 1, rest, _, distinct, deep => by
    rw [itemsDepth] at deep
    have read := readValue_print item fuel (unit ',' :: (printItems numerals (next :: items) ++ unit ']' :: rest))
      (distinct item (.head _)) (by omega) (stops_cons (by decide))
    have others := readItems_print (next :: items) fuel rest (List.cons_ne_nil _ _)
      (fun other member => distinct other (.tail _ member)) (by omega)
    have comma : unit ',' ≠ unit ']' := by decide
    rw [printItems, List.append_assoc, List.cons_append, readItems, read]
    simp only [Option.bind_eq_bind, Option.bind_some,
      skip_cons (show isSpace (unit ',') = false by decide), if_neg comma,
      if_true, others]

theorem readFields_print :
    ∀ (fields : List (List UInt16 × Json ν)) (fuel : Nat) (rest : List UInt16), fields ≠ [] →
    (∀ field ∈ fields, field.2.Distinct) → fieldsDepth fields ≤ fuel →
    readFields numerals fuel (printFields numerals fields ++ CLOSE_BRACE :: rest) = some (fields, rest)
  | [], _, _, some_, _, _ => absurd rfl some_
  | (key, value) :: fields, 0, _, _, _, deep => by
    simp [fieldsDepth] at deep
  | [(key, value)], fuel + 1, rest, _, distinct, deep => by
    have read := readValue_print value fuel (CLOSE_BRACE :: rest) (distinct (key, value) (.head _))
      (by rw [fieldsDepth] at deep; omega) (stops_cons (by decide))
    rw [printFields, List.append_assoc, List.cons_append, readFields, strip_quote]
    simp only [Option.bind_eq_bind, Option.bind_some, readString_quote, strip_colon, read,
      skip_cons (show isSpace CLOSE_BRACE = false by decide), if_true]
  | (key, value) :: next :: fields, fuel + 1, rest, _, distinct, deep => by
    rw [fieldsDepth] at deep
    have read := readValue_print value fuel
      (unit ',' :: (printFields numerals (next :: fields) ++ CLOSE_BRACE :: rest))
      (distinct (key, value) (.head _)) (by omega) (stops_cons (by decide))
    have others := readFields_print (next :: fields) fuel rest (List.cons_ne_nil _ _)
      (fun other member => distinct other (.tail _ member)) (by omega)
    have comma : unit ',' ≠ CLOSE_BRACE := by decide
    have text : printFields numerals ((key, value) :: next :: fields) ++ CLOSE_BRACE :: rest =
      quote key ++ unit ':' ::
        (print numerals value ++ unit ',' :: (printFields numerals (next :: fields) ++ CLOSE_BRACE :: rest)) := by
      simp only [printFields, List.append_assoc, List.cons_append]
    rw [text, readFields, strip_quote]
    simp only [Option.bind_eq_bind, Option.bind_some, readString_quote, strip_colon, read,
      skip_cons (show isSpace (unit ',') = false by decide), if_neg comma, if_true, others]
end

mutual
theorem depth_le : ∀ value : Json ν, depth value ≤ 2 * (print numerals value).length
  | .null => by rw [depth, print]; decide
  | .boolean value => by
    rw [depth, print]
    cases value <;> decide
  | .number value => by
    rw [depth, print]
    have some_ := List.length_pos_of_ne_nil (numerals.print_ne value)
    omega
  | .string value => by
    rw [depth, print, quote, List.length_append, List.length_cons, List.length_singleton]
    omega
  | .array items => by
    have each := itemsDepth_le items
    rw [depth, print, List.length_append, List.length_cons, List.length_singleton]
    omega
  | .object fields => by
    have each := fieldsDepth_le fields
    rw [depth, print, List.length_append, List.length_cons, List.length_singleton]
    omega

theorem itemsDepth_le : ∀ items : List (Json ν), itemsDepth items ≤ 2 * (printItems numerals items).length + 1
  | [] => Nat.zero_le _
  | [item] => by
    have first := depth_le item
    rw [itemsDepth, itemsDepth, printItems]
    omega
  | item :: next :: items => by
    have first := depth_le item
    have rest := itemsDepth_le (next :: items)
    rw [itemsDepth, printItems, List.length_append, List.length_cons]
    omega

theorem fieldsDepth_le : ∀ fields : List (List UInt16 × Json ν),
    fieldsDepth fields ≤ 2 * (printFields numerals fields).length + 1
  | [] => Nat.zero_le _
  | [(key, value)] => by
    have first := depth_le value
    rw [fieldsDepth, fieldsDepth, printFields, List.length_append, List.length_cons]
    omega
  | (key, value) :: next :: fields => by
    have first := depth_le value
    have rest := fieldsDepth_le (next :: fields)
    simp only [fieldsDepth, printFields, List.length_append, List.length_cons] at rest ⊢
    omega
end

/-- The text of a value is the text of that value only. -/
theorem parse_print {value : Json ν} (distinct : value.Distinct) :
    parse numerals (print numerals value) = some value := by
  have read := @readValue_print ν numerals value (2 * (print numerals value).length + 2) [] distinct
    (Nat.le_trans (depth_le value) (Nat.le_add_right _ 2)) nofun
  rw [List.append_nil] at read
  rw [parse, read]
  rfl

end Values

section Naturals

theorem unit_digit {value : Nat} {u : UInt16} (member : u ∈ (Nat.toDigits 10 value).map unit) :
    0x30 ≤ u.toNat ∧ u.toNat ≤ 0x39 := by
  obtain ⟨c, inDigits, rfl⟩ := List.mem_map.mp member
  have digit := Nat.isDigit_of_mem_toDigits (by decide) (by decide) inDigits
  simp only [Char.isDigit, Bool.and_eq_true, decide_eq_true_eq] at digit
  have least : 48 ≤ c.toNat := digit.1
  have most : c.toNat ≤ 57 := digit.2
  rw [unit, UInt16.toNat_ofNat', Nat.mod_eq_of_lt (by omega)]
  exact ⟨least, most⟩

theorem foldl_units {digits : List Char} {value : Nat} (plain : ∀ c ∈ digits, c.toNat < 2 ^ 16) :
    (digits.map unit).foldl (fun value u => 10 * value + (u.toNat - 0x30)) value =
      Nat.ofDigitChars 10 digits value := by
  induction digits generalizing value with
  | nil => rfl
  | cons c digits ih =>
    have same : (unit c).toNat = c.toNat := by
      rw [unit, UInt16.toNat_ofNat', Nat.mod_eq_of_lt (plain c (.head _))]
    rw [List.map_cons, List.foldl_cons, Nat.ofDigitChars_cons, ih fun other member =>
      plain other (.tail _ member), same]
    rfl

/-- The decimal texts of the natural numbers. -/
def naturals : Numerals Nat where
  print value := (Nat.toDigits 10 value).map unit
  read text :=
    if text ≠ [] ∧ text.all fun u => 0x30 ≤ u.toNat ∧ u.toNat ≤ 0x39 then
      some (text.foldl (fun value u => 10 * value + (u.toNat - 0x30)) 0)
    else none
  print_ne value := by simp
  print_numeral value u member := by
    obtain ⟨least, most⟩ := unit_digit member
    simp [isNumeral, least, most]
  read_print value := by
    have digits : ∀ c ∈ Nat.toDigits 10 value, c.toNat < 2 ^ 16 := fun c member => by
      have digit := Nat.isDigit_of_mem_toDigits (by decide) (by decide) member
      simp only [Char.isDigit, Bool.and_eq_true, decide_eq_true_eq] at digit
      have most : c.toNat ≤ 57 := digit.2
      omega
    rw [if_pos ⟨by simp, List.all_eq_true.mpr fun u member => decide_eq_true (unit_digit member)⟩,
      foldl_units digits, Nat.ofDigitChars_toDigits (by decide) (by decide)]

end Naturals

end JsonText
