import CelldWorld.JsDates
import CelldWorld.Library.Base64

namespace CelldWorld

open JsonText

/-- The properties whose texts `dateReviver` makes dates of. -/
def DATE_FIELDS : List JsText := ["createdAt", "updatedAt", "startedAt", "completedAt", "retryAfter"].map ascii

/-- A value that the codec carries; the properties of an object come in the object's own order. -/
inductive RpcData (ν : Type)
  | null
  | boolean (value : Bool)
  | number (value : ν)
  | string (value : JsText)
  | array (items : List (RpcData ν))
  | object (fields : List (JsText × RpcData ν))
  | date (value : JsDate)
  | bytes (value : List UInt8)

namespace RpcData
variable {ν : Type}

/-- No object in the value holds a key twice. -/
inductive Distinct : RpcData ν → Prop
  | null : Distinct .null
  | boolean (value : Bool) : Distinct (.boolean value)
  | number (value : ν) : Distinct (.number value)
  | string (value : JsText) : Distinct (.string value)
  | array {items : List (RpcData ν)} (each : ∀ item ∈ items, Distinct item) : Distinct (.array items)
  | object {fields : List (JsText × RpcData ν)} (keys : (fields.map Prod.fst).Nodup)
      (each : ∀ field ∈ fields, Distinct field.2) : Distinct (.object fields)
  | date (value : JsDate) : Distinct (.date value)
  | bytes (value : List UInt8) : Distinct (.bytes value)

/-- `JSON.stringify` asks a date for its text before the replacer sees the value. -/
def toJSON : RpcData ν → RpcData ν
  | .date value => .string value.toISOString
  | value => value

/-- `obj[name]` where it is a string. -/
def textOf (fields : List (JsText × RpcData ν)) (name : String) : Option JsText :=
  match fields.lookup (ascii name) with
  | some (.string text) => some text
  | _ => none

end RpcData

/-- A value whose objects have each property once. -/
structure RpcTree (ν : Type) where
  data : RpcData ν
  distinct : data.Distinct

/-- What `JSON.parse` and the reviver throw. -/
inductive SyntaxError
  | text
  | tag (message : String)
  deriving DecidableEq

/-- What the two ends of the wire rest on: the text of a number, the vendored base64 helpers, and
the dates that `new Date` makes of texts which `toISOString` does not write. -/
structure RpcPlatform (ν : Type) where
  numerals : Numerals ν
  b64encode : List UInt8 → JsText
  b64decode : JsText → Option (List UInt8)
  dateParse : JsText → Option JsDate
  b64decode_b64encode : ∀ bytes, b64decode (b64encode bytes) = some bytes

namespace RpcPlatform
variable {ν : Type} (platform : RpcPlatform ν)

/-- `new Date(text)`, `none` when its time is not a number. -/
def dateOf (text : JsText) : Option JsDate := JsDate.ofText platform.dateParse text

/-- The date comes from the holder, since the value is its text by now. -/
def rpcReplacer (original value : RpcData ν) : RpcData ν :=
  match original, value with
  | .date date, _ => .object [(ascii "__type", .string (ascii "Date")), (ascii "iso", .string date.toISOString)]
  | _, .bytes bytes =>
    .object [(ascii "__type", .string (ascii "Uint8Array")), (ascii "data", .string (platform.b64encode bytes))]
  | _, value => value

mutual
/-- What `JSON.stringify` writes down with the replacer, from the value to its parts. -/
def stringified : RpcData ν → Json ν
  | .null => .null
  | .boolean value => .boolean value
  | .number value => .number value
  | .string value => .string value
  | .array items => .array (stringifiedItems items)
  | .object fields => .object (stringifiedFields fields)
  | .date date => .object [(ascii "__type", .string (ascii "Date")), (ascii "iso", .string date.toISOString)]
  | .bytes bytes =>
    .object [(ascii "__type", .string (ascii "Uint8Array")), (ascii "data", .string (platform.b64encode bytes))]

def stringifiedItems : List (RpcData ν) → List (Json ν)
  | [] => []
  | item :: items => stringified item :: stringifiedItems items

def stringifiedFields : List (JsText × RpcData ν) → List (JsText × Json ν)
  | [] => []
  | (key, value) :: fields => (key, stringified value) :: stringifiedFields fields
end

def dateReviver (key : JsText) (value : RpcData ν) : RpcData ν :=
  match value with
  | .string text =>
    if key ∈ DATE_FIELDS then
      match platform.dateOf text with
      | some date => .date date
      | none => value
    else value
  | _ => value

/-- The parts of the value have been revived before it. -/
def rpcReviver (key : JsText) (value : RpcData ν) : Except SyntaxError (RpcData ν) :=
  match value with
  | .object fields =>
    if RpcData.textOf fields "__type" = some (ascii "Date") then
      match (RpcData.textOf fields "iso").bind platform.dateOf with
      | some date => .ok (.date date)
      | none => .error (.tag "Malformed Date tag")
    else if RpcData.textOf fields "__type" = some (ascii "Uint8Array") then
      match (RpcData.textOf fields "data").bind platform.b64decode with
      | some bytes => .ok (.bytes bytes)
      | none => .error (.tag "Malformed Uint8Array tag")
    else .ok (platform.dateReviver key value)
  | _ => .ok (platform.dateReviver key value)

/-- The key under which an item stands in its array. -/
def indexKey (index : Nat) : JsText := ascii (toString index)

mutual
/-- `JSON.parse` revives a value under its key after its parts, in their order. -/
def revived : JsText → Json ν → Except SyntaxError (RpcData ν)
  | key, .null => platform.rpcReviver key .null
  | key, .boolean value => platform.rpcReviver key (.boolean value)
  | key, .number value => platform.rpcReviver key (.number value)
  | key, .string value => platform.rpcReviver key (.string value)
  | key, .array items => do
    let items ← revivedItems 0 items
    platform.rpcReviver key (.array items)
  | key, .object fields => do
    let fields ← revivedFields fields
    platform.rpcReviver key (.object fields)

def revivedItems : Nat → List (Json ν) → Except SyntaxError (List (RpcData ν))
  | _, [] => .ok []
  | index, item :: items => do
    let item ← revived (indexKey index) item
    let items ← revivedItems (index + 1) items
    .ok (item :: items)

def revivedFields : List (JsText × Json ν) → Except SyntaxError (List (JsText × RpcData ν))
  | [] => .ok []
  | (key, value) :: fields => do
    let value ← revived key value
    let fields ← revivedFields fields
    .ok ((key, value) :: fields)
end

def rpcStringify (value : RpcData ν) : JsText := print platform.numerals (platform.stringified value)

/-- The root is revived under the empty key. -/
def rpcParse (text : JsText) : Except SyntaxError (RpcData ν) :=
  match parse platform.numerals text with
  | some json => platform.revived [] json
  | none => .error .text

end RpcPlatform

/-- The code itself reads a value back where no object is a tag and no text stands for a date; the
flag says that the value is the value of a date field. -/
inductive RpcData.Kept {ν : Type} (dateOf : JsText → Option JsDate) : Bool → RpcData ν → Prop
  | null (dated : Bool) : Kept dateOf dated .null
  | boolean (dated value : Bool) : Kept dateOf dated (.boolean value)
  | number (dated : Bool) (value : ν) : Kept dateOf dated (.number value)
  | string {dated : Bool} {value : JsText} (undated : dated = true → dateOf value = none) :
      Kept dateOf dated (.string value)
  | array (dated : Bool) {items : List (RpcData ν)} (each : ∀ item ∈ items, Kept dateOf false item) :
      Kept dateOf dated (.array items)
  | object (dated : Bool) {fields : List (JsText × RpcData ν)}
      (untagged : RpcData.textOf fields "__type" ≠ some (ascii "Date") ∧
        RpcData.textOf fields "__type" ≠ some (ascii "Uint8Array"))
      (each : ∀ field ∈ fields, Kept dateOf (field.1 ∈ DATE_FIELDS) field.2) : Kept dateOf dated (.object fields)
  | date (dated : Bool) (value : JsDate) : Kept dateOf dated (.date value)
  | bytes (dated : Bool) (value : List UInt8) : Kept dateOf dated (.bytes value)

namespace RpcPlatform
variable {ν : Type} {platform : RpcPlatform ν}

/-- Writing a value is writing what the replacer returns for it. -/
theorem stringified_rpcReplacer (value : RpcData ν) :
    platform.stringified (platform.rpcReplacer value value.toJSON) = platform.stringified value := by
  cases value <;> rfl

/-- The replacer leaves no date and no bytes to `JSON.stringify`. -/
theorem rpcReplacer_plain (value : RpcData ν) :
    (∀ date, platform.rpcReplacer value value.toJSON ≠ .date date) ∧
      ∀ bytes, platform.rpcReplacer value value.toJSON ≠ .bytes bytes := by
  cases value <;> exact ⟨nofun, nofun⟩

theorem stringifiedFields_keys : ∀ fields : List (JsText × RpcData ν),
    (platform.stringifiedFields fields).map Prod.fst = fields.map Prod.fst
  | [] => rfl
  | (key, _) :: fields => congrArg (key :: ·) (stringifiedFields_keys fields)

mutual
theorem stringified_distinct : ∀ value : RpcData ν, value.Distinct → (platform.stringified value).Distinct
  | .null, _ => .null
  | .boolean value, _ => .boolean value
  | .number value, _ => .number value
  | .string value, _ => .string value
  | .array items, .array each => .array (stringifiedItems_distinct items each)
  | .object fields, .object keys each =>
    .object (by rwa [stringifiedFields_keys fields]) (stringifiedFields_distinct fields each)
  | .date date, _ => .object (by decide : [ascii "__type", ascii "iso"].Nodup) fun field member => by
    simp only [List.mem_cons, List.not_mem_nil, or_false] at member
    rcases member with rfl | rfl <;> exact .string _
  | .bytes bytes, _ => .object (by decide : [ascii "__type", ascii "data"].Nodup) fun field member => by
    simp only [List.mem_cons, List.not_mem_nil, or_false] at member
    rcases member with rfl | rfl <;> exact .string _

theorem stringifiedItems_distinct : ∀ items : List (RpcData ν), (∀ item ∈ items, item.Distinct) →
    ∀ item ∈ platform.stringifiedItems items, item.Distinct
  | [], _, _, member => nomatch member
  | first :: items, each, item, member => by
    rcases List.mem_cons.mp member with rfl | member
    · exact stringified_distinct first (each first (.head _))
    · exact stringifiedItems_distinct items (fun other later => each other (.tail _ later)) item member

theorem stringifiedFields_distinct : ∀ fields : List (JsText × RpcData ν), (∀ field ∈ fields, field.2.Distinct) →
    ∀ field ∈ platform.stringifiedFields fields, field.2.Distinct
  | [], _, _, member => nomatch member
  | (key, value) :: fields, each, field, member => by
    rcases List.mem_cons.mp member with rfl | member
    · exact stringified_distinct value (each (key, value) (.head _))
    · exact stringifiedFields_distinct fields (fun other later => each other (.tail _ later)) field member
end

/-- What is left of the round trip once the text is a value again. -/
theorem rpcParse_stringify {value : RpcData ν} (distinct : value.Distinct) :
    platform.rpcParse (platform.rpcStringify value) = platform.revived [] (platform.stringified value) := by
  rw [rpcParse, rpcStringify, parse_print (stringified_distinct value distinct)]

/-- No date field is named like an index. -/
theorem indexKey_undated {index : Nat} : indexKey index ∉ DATE_FIELDS := by
  have letters : ∀ field ∈ DATE_FIELDS, ∃ u ∈ field, 0x39 < u.toNat := by decide
  intro member
  obtain ⟨u, inKey, letter⟩ := letters _ member
  have digits : toString index = String.ofList (Nat.toDigits 10 index) := Nat.repr_eq_ofList_toDigits
  rw [indexKey, ascii, digits, String.toList_ofList] at inKey
  exact absurd (unit_digit inKey).2 (Nat.not_le.mpr letter)

section Reviver
variable {key : JsText} {fields revivedFields : List (JsText × RpcData ν)}

/-- The reviver keeps an object as it is exactly when it is no tag. -/
theorem rpcReviver_object : platform.rpcReviver key (.object revivedFields) = .ok (.object fields) ↔
    revivedFields = fields ∧ RpcData.textOf fields "__type" ≠ some (ascii "Date") ∧
      RpcData.textOf fields "__type" ≠ some (ascii "Uint8Array") := by
  unfold rpcReviver
  dsimp only
  split
  · rename_i date
    constructor
    · intro same
      split at same <;> cases same
    · rintro ⟨rfl, untagged, -⟩
      exact absurd date untagged
  · rename_i undated
    split
    · rename_i bytes
      constructor
      · intro same
        split at same <;> cases same
      · rintro ⟨rfl, -, untagged⟩
        exact absurd bytes untagged
    · rename_i plain
      constructor
      · intro same
        cases same
        exact ⟨rfl, undated, plain⟩
      · rintro ⟨rfl, -⟩
        rfl

/-- A text stays a text unless it stands for the date of a date field. -/
theorem rpcReviver_string {text : JsText} : platform.rpcReviver key (.string text) = .ok (.string text) ↔
    (key ∈ DATE_FIELDS → platform.dateOf text = none) := by
  unfold rpcReviver dateReviver
  dsimp only
  by_cases dated : key ∈ DATE_FIELDS
  · rw [if_pos dated]
    cases platform.dateOf text with
    | none => exact ⟨fun _ _ => rfl, fun _ => rfl⟩
    | some date => exact ⟨fun same => (nomatch same), fun undated => (nomatch undated dated)⟩
  · rw [if_neg dated]
    exact ⟨fun _ member => absurd member dated, fun _ => rfl⟩

/-- The texts of a tag are revived as they are. -/
theorem revived_tag {type text : JsText} {name : String} (undated : ascii name ∉ DATE_FIELDS) :
    platform.revived key (.object [(ascii "__type", .string type), (ascii name, .string text)]) =
      platform.rpcReviver key (.object [(ascii "__type", .string type), (ascii name, .string text)]) := by
  have typeKey : ascii "__type" ∉ DATE_FIELDS := by decide
  have first := (@rpcReviver_string ν platform (ascii "__type") type).mpr fun member => absurd member typeKey
  have second := (@rpcReviver_string ν platform (ascii name) text).mpr fun member => absurd member undated
  rw [revived, RpcPlatform.revivedFields, RpcPlatform.revivedFields, RpcPlatform.revivedFields,
    revived, revived, first,
    second]
  rfl

theorem textOf_type {type text : JsText} {name : String} :
    @RpcData.textOf ν [(ascii "__type", .string type), (ascii name, .string text)] "__type" = some type := by
  rw [RpcData.textOf, List.lookup_cons_self]

theorem textOf_name {type text : JsText} {name : String} (apart : (ascii name == ascii "__type") = false) :
    @RpcData.textOf ν [(ascii "__type", .string type), (ascii name, .string text)] name = some text := by
  rw [RpcData.textOf, List.lookup_cons, apart]
  simp only [List.lookup_cons_self]

theorem rpcReviver_dated {text : JsText} {date : JsDate} (dated : key ∈ DATE_FIELDS)
    (read : platform.dateOf text = some date) :
    platform.rpcReviver key (.string text) = .ok (.date date) := by
  unfold rpcReviver dateReviver
  simp only [if_pos dated, read]

theorem revived_date {date : JsDate} :
    platform.revived key (platform.stringified (.date date)) = .ok (.date date) := by
  have read : platform.dateOf date.toISOString = some date := JsDate.ofText_toISOString date
  rw [stringified, revived_tag (by decide), rpcReviver]
  simp only [textOf_type, if_true,
    textOf_name (show (ascii "iso" == ascii "__type") = false by decide), Option.bind_some,
    read]

theorem revived_bytes {bytes : List UInt8} :
    platform.revived key (platform.stringified (.bytes bytes)) = .ok (.bytes bytes) := by
  have undated : some (ascii "Uint8Array") ≠ some (ascii "Date") := by decide
  rw [stringified, revived_tag (by decide), rpcReviver]
  simp only [textOf_type, if_neg undated, if_true,
    textOf_name (show (ascii "data" == ascii "__type") = false by decide), Option.bind_some,
    platform.b64decode_b64encode]

end Reviver

theorem bind_ok {α β : Type} {first : Except SyntaxError α} {next : α → Except SyntaxError β} {result : β} :
    first >>= next = .ok result ↔ ∃ value, first = .ok value ∧ next value = .ok result := by
  cases first with
  | error error => exact ⟨fun same => (nomatch same), fun ⟨_, same, _⟩ => (nomatch same)⟩
  | ok value => exact ⟨fun same => ⟨value, rfl, same⟩, fun ⟨_, rfl, same⟩ => same⟩

mutual
/-- Under its key, what is written of a value is revived as that value exactly when it is kept. -/
theorem revived_stringified : ∀ (key : JsText) (value : RpcData ν),
    platform.revived key (platform.stringified value) = .ok value ↔ value.Kept platform.dateOf (key ∈ DATE_FIELDS)
  | _, .null => ⟨fun _ => .null _, fun _ => rfl⟩
  | _, .boolean value => ⟨fun _ => .boolean _ value, fun _ => rfl⟩
  | _, .number value => ⟨fun _ => .number _ value, fun _ => rfl⟩
  | key, .string text => by
    rw [stringified, revived, rpcReviver_string]
    constructor
    · exact fun undated => .string fun dated => undated (of_decide_eq_true dated)
    · rintro (_ | _ | _ | undated) dated
      exact undated (decide_eq_true dated)
  | key, .array items => by
    rw [stringified, revived, bind_ok]
    constructor
    · rintro ⟨others, each, same⟩
      cases same
      exact .array _ ((revivedItems_stringified 0 items).mp each)
    · rintro (_ | _ | _ | _ | ⟨_, each⟩)
      exact ⟨items, (revivedItems_stringified 0 items).mpr each, rfl⟩
  | key, .object fields => by
    rw [stringified, revived, bind_ok]
    constructor
    · rintro ⟨others, each, same⟩
      obtain ⟨rfl, untagged⟩ := rpcReviver_object.mp same
      exact .object _ untagged ((revivedFields_stringified others).mp each)
    · rintro (_ | _ | _ | _ | _ | ⟨_, untagged, each⟩)
      exact ⟨fields, (revivedFields_stringified fields).mpr each, rpcReviver_object.mpr ⟨rfl, untagged⟩⟩
  | _, .date value => ⟨fun _ => .date _ value, fun _ => revived_date⟩
  | _, .bytes value => ⟨fun _ => .bytes _ value, fun _ => revived_bytes⟩

theorem revivedItems_stringified : ∀ (index : Nat) (items : List (RpcData ν)),
    platform.revivedItems index (platform.stringifiedItems items) = .ok items ↔
      ∀ item ∈ items, item.Kept platform.dateOf false
  | _, [] => ⟨fun _ => nofun, fun _ => rfl⟩
  | index, item :: items => by
    have first := revived_stringified (indexKey index) item
    rw [decide_eq_false indexKey_undated] at first
    rw [stringifiedItems, revivedItems, bind_ok, List.forall_mem_cons, ← first,
      ← revivedItems_stringified (index + 1) items]
    constructor
    · rintro ⟨value, read, rest⟩
      obtain ⟨values, others, same⟩ := bind_ok.mp rest
      cases same
      exact ⟨read, others⟩
    · rintro ⟨read, others⟩
      exact ⟨item, read, bind_ok.mpr ⟨items, others, rfl⟩⟩

theorem revivedFields_stringified : ∀ fields : List (JsText × RpcData ν),
    platform.revivedFields (platform.stringifiedFields fields) = .ok fields ↔
      ∀ field ∈ fields, field.2.Kept platform.dateOf (field.1 ∈ DATE_FIELDS)
  | [] => ⟨fun _ => nofun, fun _ => rfl⟩
  | (key, value) :: fields => by
    rw [stringifiedFields, revivedFields, bind_ok, List.forall_mem_cons, ← revived_stringified key value,
      ← revivedFields_stringified fields]
    constructor
    · rintro ⟨first, read, rest⟩
      obtain ⟨values, others, same⟩ := bind_ok.mp rest
      cases same
      exact ⟨read, others⟩
    · rintro ⟨read, others⟩
      exact ⟨value, read, bind_ok.mpr ⟨fields, others, rfl⟩⟩
end

/-- The round trip returns the value exactly when no object in it is a tag and no text in it
stands for the date of a date field. -/
theorem rpcParse_rpcStringify (platform : RpcPlatform ν) (value : RpcTree ν) :
    platform.rpcParse (platform.rpcStringify value.data) = .ok value.data ↔
      value.data.Kept platform.dateOf false := by
  rw [rpcParse_stringify value.distinct]
  exact revived_stringified [] value.data

end RpcPlatform

/-- A wire whose base64 is the standard one. -/
def naturalWire : RpcPlatform Nat where
  numerals := naturals
  b64encode := Base64.encode
  b64decode := Base64.decode
  dateParse _ := none
  b64decode_b64encode _ := Base64.decode_encode

/-- An object with one property, whose value is a text. -/
def RpcTree.ofText (key text : String) : RpcTree Nat where
  data := .object [(ascii key, .string (ascii text))]
  distinct := .object (by simp) fun field member => by
    rw [List.mem_singleton.mp member]
    exact .string _

/-- What a step of a run is given: a date, and below it bytes and an object of its own. -/
def RpcTree.stepInput : RpcTree Nat where
  data := .object [(ascii "createdAt", .date ⟨1577836800000, by decide⟩),
    (ascii "input", .array [.bytes [0, 255], .null, .object [(ascii "retryAfter", .string (ascii "later")),
      (ascii "count", .number 3)]])]
  distinct := by
    refine .object (by decide) fun field member => ?_
    simp only [List.mem_cons, List.not_mem_nil, or_false] at member
    rcases member with rfl | rfl
    · exact .date _
    refine .array fun item member => ?_
    simp only [List.mem_cons, List.not_mem_nil, or_false] at member
    rcases member with rfl | rfl | rfl
    · exact .bytes _
    · exact .null
    refine .object (by decide) fun field member => ?_
    simp only [List.mem_cons, List.not_mem_nil, or_false] at member
    rcases member with rfl | rfl
    · exact .string _
    · exact .number _

/-- A text under the name of a date field comes back as a date, and an object that looks like a
tag does not come back at all. -/
theorem rpcParse_taken :
    naturalWire.rpcParse (naturalWire.rpcStringify (RpcTree.ofText "createdAt" "2020-01-01T00:00:00.000Z").data) =
        .ok (.object [(ascii "createdAt", .date ⟨1577836800000, by decide⟩)]) ∧
      naturalWire.rpcParse (naturalWire.rpcStringify (RpcTree.ofText "__type" "Date").data) =
        .error (.tag "Malformed Date tag") ∧
      ¬ ∀ value : RpcTree Nat, naturalWire.rpcParse (naturalWire.rpcStringify value.data) = .ok value.data := by
  have tag : naturalWire.rpcParse (naturalWire.rpcStringify (RpcTree.ofText "__type" "Date").data) =
      .error (.tag "Malformed Date tag") :=
    (RpcPlatform.rpcParse_stringify (RpcTree.ofText "__type" "Date").distinct).trans rfl
  have read : naturalWire.dateOf (ascii "2020-01-01T00:00:00.000Z") = some ⟨1577836800000, by decide⟩ := by
    decide +kernel
  refine ⟨(RpcPlatform.rpcParse_stringify (RpcTree.ofText "createdAt" _).distinct).trans ?_,
    tag, fun returns => ?_⟩
  · simp only [RpcTree.ofText, RpcPlatform.stringified, RpcPlatform.stringifiedFields, RpcPlatform.revived,
      RpcPlatform.revivedFields, RpcPlatform.rpcReviver_dated (by decide : ascii "createdAt" ∈ DATE_FIELDS) read]
    rfl
  have same := returns (RpcTree.ofText "__type" "Date")
  rw [tag] at same
  cases same

/-- A nested value comes back whole, also where a text under the name of a date field is
not one that a date is read from. -/
theorem rpcParse_rpcStringify_nested :
    naturalWire.rpcParse (naturalWire.rpcStringify RpcTree.stepInput.data) = .ok RpcTree.stepInput.data := by
  refine (RpcPlatform.rpcParse_rpcStringify naturalWire .stepInput).mpr ?_
  refine .object _ (by decide) fun field member => ?_
  simp only [List.mem_cons, List.not_mem_nil, or_false] at member
  rcases member with rfl | rfl
  · exact .date _ _
  refine .array _ fun item member => ?_
  simp only [List.mem_cons, List.not_mem_nil, or_false] at member
  rcases member with rfl | rfl | rfl
  · exact .bytes _ _
  · exact .null _
  refine .object _ (by decide) fun field member => ?_
  simp only [List.mem_cons, List.not_mem_nil, or_false] at member
  rcases member with rfl | rfl
  · exact .string fun _ => by decide +kernel
  · exact .number _ _

/-- The answer to a refused call. -/
structure RpcRefusal where
  status : Nat
  name : String
  message : String
  deriving DecidableEq

namespace RpcPlatform
variable {ν : Type} (platform : RpcPlatform ν)

/-- The last part of the function, with the text of a body that is not too long. -/
def parseRpcArguments (text : JsText) : Except RpcRefusal (List (RpcData ν)) :=
  match platform.rpcParse text with
  | .ok (.array parsed) => .ok parsed
  | .ok _ => .error ⟨400, "BadRequest", "body must be an argument array"⟩
  | .error _ => .error ⟨400, "BadRequest", "malformed rpc body"⟩

/-- The arguments of a call arrive as they were sent exactly when each of them is kept. -/
theorem parseRpcArguments_rpcStringify {arguments : List (RpcData ν)}
    (distinct : ∀ argument ∈ arguments, argument.Distinct) :
    platform.parseRpcArguments (platform.rpcStringify (.array arguments)) = .ok arguments ↔
      ∀ argument ∈ arguments, argument.Kept platform.dateOf false := by
  rw [← revivedItems_stringified 0 arguments, parseRpcArguments, rpcParse_stringify (.array distinct),
    stringified, revived]
  cases platform.revivedItems 0 (platform.stringifiedItems arguments) with
  | error error => exact ⟨fun same => (nomatch same), fun same => (nomatch same)⟩
  | ok items => exact ⟨fun same => congrArg _ (Except.ok.inj same), fun same => congrArg _ (Except.ok.inj same)⟩

end RpcPlatform

end CelldWorld
