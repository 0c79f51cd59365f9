import CelldWorld.CatalogFleet
import CelldWorld.Library.PaddedDigits

namespace CelldWorld

/-- The characters that `.` of a regular expression does not match. -/
def lineTerminator (c : Char) : Bool := c = '\n' || c = '\r' || c.toNat = 0x2028 || c.toNat = 0x2029

/-- Thirteen digits between colons, behind a text in one line. -/
def TimestampAt (text front digits back : List Char) : Prop :=
  text = front ++ ':' :: (digits ++ ':' :: back) ∧ digits.length = 13 ∧ digits.all Char.isDigit = true ∧
    front.all (fun c => !lineTerminator c) = true

/-- The greedy group of the workflow key stops at the creation time: the workflow name is in one
line, and no other timestamp lies ahead in the line that the run ID, after its colon, starts in. -/
def Unambiguous (workflowName runId : String) : Prop :=
  workflowName.toList.all (fun c => !lineTerminator c) = true ∧
    ¬ ∃ front digits back, TimestampAt (':' :: runId.toList) front digits back

theorem find?_last {n last : Nat} {holds : Nat → Bool} :
    (List.range n).reverse.find? holds = some last ↔
      last < n ∧ holds last = true ∧ ∀ later, last < later → later < n → holds later = false := by
  induction n with
  | zero => simp
  | succ n ih =>
    rw [List.range_succ, List.reverse_append, List.reverse_singleton, List.singleton_append, List.find?_cons]
    cases here : holds n with
    | true =>
      constructor
      · intro found
        cases Option.some.inj found
        exact ⟨Nat.lt_succ_self _, here, fun later after before => by omega⟩
      · rintro ⟨bound, -, greatest⟩
        rcases Nat.lt_or_eq_of_le (Nat.le_of_lt_succ bound) with before | same
        · rw [greatest n before (Nat.lt_succ_self n)] at here
          cases here
        · exact congrArg some same.symm
    | false =>
      refine ih.trans ⟨?_, ?_⟩
      · rintro ⟨bound, held, greatest⟩
        refine ⟨Nat.lt_succ_of_lt bound, held, fun later after before => ?_⟩
        rcases Nat.lt_or_eq_of_le (Nat.le_of_lt_succ before) with earlier | same
        · exact greatest later after earlier
        · exact same ▸ here
      · rintro ⟨bound, held, greatest⟩
        refine ⟨?_, held, fun later after before => greatest later after (Nat.lt_succ_of_lt before)⟩
        rcases Nat.lt_or_eq_of_le (Nat.le_of_lt_succ bound) with earlier | same
        · exact earlier
        · rw [same, here] at held
          cases held

namespace RunCatalogDO

variable {rest : List Char} {length : Nat}

/-- Whether the groups can be matched with the first one at a length. -/
def matchesAt (rest : List Char) (length : Nat) : Bool :=
  0 < length && (rest.take length).all (fun c => !lineTerminator c) && rest[length]? = some ':' &&
    ((rest.drop (length + 1)).take 13).length = 13 && ((rest.drop (length + 1)).take 13).all Char.isDigit &&
    rest[length + 14]? = some ':'

theorem drop_eq_cons {index : Nat} {c : Char} (at_ : rest[index]? = some c) :
    rest.drop index = c :: rest.drop (index + 1) := by
  obtain ⟨inside, same⟩ := List.getElem?_eq_some_iff.mp at_
  rw [List.drop_eq_getElem_cons inside, same]

/-- The groups are matched where a timestamp stands behind a text in one line. -/
theorem matchesAt_iff : matchesAt rest length = true ↔
    ∃ front digits back, TimestampAt rest front digits back ∧ front.length = length ∧ 0 < length := by
  simp only [matchesAt, Bool.and_eq_true, decide_eq_true_eq]
  constructor
  · rintro ⟨⟨⟨⟨⟨some_, line⟩, colon⟩, full⟩, digits⟩, end_⟩
    have inside : length < rest.length := (List.getElem?_eq_some_iff.mp colon).1
    refine ⟨rest.take length, (rest.drop (length + 1)).take 13, rest.drop (length + 14 + 1),
      ⟨?_, full, digits, line⟩, ?_, some_⟩
    · calc rest
          = rest.take length ++ rest.drop length := (List.take_append_drop length rest).symm
        _ = rest.take length ++ ':' :: rest.drop (length + 1) := by rw [drop_eq_cons colon]
        _ = rest.take length ++ ':' :: ((rest.drop (length + 1)).take 13 ++ rest.drop (length + 14)) := by
            have digitsBefore := List.take_append_drop 13 (rest.drop (length + 1))
            rw [List.drop_drop] at digitsBefore
            exact congrArg (rest.take length ++ ':' :: ·) digitsBefore.symm
        _ = _ := by rw [drop_eq_cons end_]
    · rw [List.length_take]
      omega
  · rintro ⟨front, digits, back, ⟨rfl, full, digits', line⟩, rfl, some_⟩
    have behind : (front ++ ':' :: (digits ++ ':' :: back)).drop (front.length + 1) = digits ++ ':' :: back := by
      rw [← List.drop_drop, List.drop_left, List.drop_one, List.tail_cons]
    have taken : (digits ++ ':' :: back).take 13 = digits := by rw [← full, List.take_left]
    rw [behind, taken, List.take_left]
    refine ⟨⟨⟨⟨⟨some_, line⟩, ?_⟩, full⟩, digits'⟩, ?_⟩
    · rw [List.getElem?_append_right (Nat.le_refl _), Nat.sub_self]
      rfl
    · rw [List.getElem?_append_right (by omega), show front.length + 14 - front.length = 13 + 1 by omega,
        List.getElem?_cons_succ, List.getElem?_append_right (by omega), full]
      rfl

/-- The workflow key of a run, behind its prefix. -/
def keyRest (workflowName created runId : List Char) :
    List Char := workflowName ++ ':' :: (created ++ ':' :: runId)

variable {workflowName created runId : List Char}

theorem timestampAt_keyRest (full : created.length = 13) (digits : created.all Char.isDigit = true)
    (line : workflowName.all (fun c => !lineTerminator c) = true) :
    TimestampAt (keyRest workflowName created runId) workflowName created runId :=
  ⟨rfl, full, digits, line⟩

/-- A timestamp behind the creation time lies in the run ID, after its colon. -/
theorem timestampAt_ahead {front digits back : List Char} (allDigits : created.all Char.isDigit = true)
    (found : TimestampAt (keyRest workflowName created runId) front digits back)
    (later : workflowName.length < front.length) :
    ∃ ahead, TimestampAt (':' :: runId) ahead digits back := by
  obtain ⟨same, full, digits', line⟩ := found
  have noColon : ':' ∉ created := fun member => by
    have digit := List.all_eq_true.mp allDigits ':' member
    cases digit
  rcases List.append_eq_append_iff.mp same with ⟨extra, rfl, within⟩ | ⟨extra, rfl, -⟩
  · cases extra with
    | nil =>
      rw [List.append_nil] at later
      omega
    | cons first extra =>
      rw [List.cons_append] at within
      obtain ⟨rfl, beyondName⟩ := List.cons.inj within
      rcases List.append_eq_append_iff.mp beyondName with ⟨ahead, rfl, behind⟩ | ⟨rest, rfl, behind⟩
      · refine ⟨ahead, behind, full, digits', ?_⟩
        rw [List.all_append, List.all_cons, List.all_append, Bool.and_eq_true, Bool.and_eq_true,
          Bool.and_eq_true] at line
        exact line.2.2.2
      · cases rest with
        | nil => exact ⟨[], behind.symm, full, digits', rfl⟩
        | cons second rest =>
          obtain ⟨rfl, -⟩ := List.cons.inj behind
          exact absurd (List.mem_append_right _ (List.mem_cons_self ..)) noColon
  · rw [List.length_append] at later
    omega

theorem matchRunKey_find {key : String} (spelled : key.toList = 'r' :: 'u' :: 'n' :: ':' :: rest) :
    matchRunKey key = ((List.range rest.length).reverse.find? (matchesAt rest)).map fun length =>
      (String.ofList (rest.take length), String.ofList ((rest.drop (length + 1)).take 13)) := by
  unfold matchRunKey
  rw [spelled]
  rfl

/-- The greedy group stops at the creation time exactly where the key is unambiguous. -/
theorem matchesAt_greatest (some_ : workflowName ≠ []) (full : created.length = 13)
    (digits : created.all Char.isDigit = true) :
    (List.range (keyRest workflowName created runId).length).reverse.find?
      (matchesAt (keyRest workflowName created runId)) =
        some workflowName.length ↔
      workflowName.all (fun c => !lineTerminator c) = true ∧
        ¬ ∃ front digits back, TimestampAt (':' :: runId) front digits back := by
  have length : (keyRest workflowName created runId).length =
      workflowName.length + (1 + (13 + (1 + runId.length))) := by
    simp only [keyRest, List.length_append, List.length_cons, full]
    omega
  rw [find?_last]
  constructor
  · rintro ⟨-, here, greatest⟩
    obtain ⟨front, _, _, ⟨same, _, _, line⟩, sameLength, -⟩ := matchesAt_iff.mp here
    have name : front = workflowName := (List.append_inj same sameLength.symm).1.symm
    rw [name] at line
    refine ⟨line, ?_⟩
    rintro ⟨ahead, aheadDigits, back, split, aheadFull, aheadDigits', aheadLine⟩
    have inside : ahead.length < (':' :: runId).length := by
      rw [split, List.length_append, List.length_cons]
      omega
    rw [List.length_cons] at inside
    have found : TimestampAt (keyRest workflowName created runId) (workflowName ++ ':' :: (created ++ ahead))
        aheadDigits back := by
      refine ⟨?_, aheadFull, aheadDigits', ?_⟩
      · simp only [keyRest, split, List.append_assoc, List.cons_append]
      · have digitsLine : created.all (fun c => !lineTerminator c) = true := by
          refine List.all_eq_true.mpr fun c member => ?_
          have digit := List.all_eq_true.mp digits c member
          rw [Bool.not_eq_true']
          refine Bool.eq_false_iff.mpr fun ends => ?_
          simp only [lineTerminator, Bool.or_eq_true, decide_eq_true_eq] at ends
          rcases ends with ((rfl | rfl) | high) | high
          · cases digit
          · cases digit
          · simp only [Char.isDigit, Bool.and_eq_true, decide_eq_true_eq] at digit
            have bound : c.toNat ≤ 57 := digit.2
            omega
          · simp only [Char.isDigit, Bool.and_eq_true, decide_eq_true_eq] at digit
            have bound : c.toNat ≤ 57 := digit.2
            omega
        rw [List.all_append, List.all_cons, List.all_append, line, digitsLine, aheadLine]
        rfl
    have later := matchesAt_iff.mpr ⟨_, _, _, found, rfl, by simp⟩
    rw [greatest _ (by simp) (by
      rw [length]
      simp only [List.length_append, List.length_cons, full]
      omega)] at later
    cases later
  · rintro ⟨line, unambiguous⟩
    refine ⟨by omega, ?_, fun later after before => ?_⟩
    · exact matchesAt_iff.mpr ⟨workflowName, created, runId, timestampAt_keyRest full digits line, rfl,
        List.length_pos_iff.mpr some_⟩
    · refine Bool.eq_false_iff.mpr fun held => unambiguous ?_
      obtain ⟨front, laterDigits, back, found, rfl, -⟩ := matchesAt_iff.mp held
      obtain ⟨ahead, lies⟩ := timestampAt_ahead digits found after
      exact ⟨ahead, laterDigits, back, lies⟩

end RunCatalogDO

theorem pad_toList (ms : Nat) : (pad ms).toList = PaddedDigits.padded 13 ms := by
  have digits : toString ms = String.ofList (Nat.toDigits 10 ms) := Nat.repr_eq_ofList_toDigits
  rw [pad, String.toList_ofList, digits, String.toList_ofList]
  rfl

theorem pad_length {ms : Nat} (fits : ms < 10 ^ 13) : (pad ms).toList.length = 13 := by
  rw [pad_toList, PaddedDigits.padded_length (by decide) fits]

theorem pad_digits (ms : Nat) : (pad ms).toList.all Char.isDigit = true := by
  rw [pad_toList]
  exact PaddedDigits.padded_digits

namespace RunCatalogDO
variable {run : WorkflowRun}

theorem workflowKey_toList (run : WorkflowRun) :
    (s!"run:{run.workflowName}:{pad run.createdAt}:{run.runId}").toList =
      'r' :: 'u' :: 'n' :: ':' :: keyRest run.workflowName.toList (pad run.createdAt).toList
        run.runId.toList := by
  simp [toString, keyRest]

/-- The keys of a run are canonical exactly where the greedy group stops at its creation time. -/
theorem canonicalCatalogKeys_runKeys (some_ : run.workflowName ≠ "") (fits : run.createdAt < 10 ^ 13) :
    (∃ canonicalKeys, canonicalCatalogKeys run.runId (runKeys run) = .ok canonicalKeys) ↔
      Unambiguous run.workflowName run.runId := by
  have full := pad_length fits
  have spelled := workflowKey_toList run
  have nonempty : run.workflowName.toList ≠ [] := fun empty => some_ (String.toList_inj.mp empty)
  have greatest := @matchesAt_greatest _ _ run.runId.toList nonempty full (pad_digits run.createdAt)
  refine Iff.trans ?_ greatest
  constructor
  · rintro ⟨canonicalKeys, canonical⟩
    obtain ⟨workflowName, created, found, keys, workflowKey, -⟩ := canonicalCatalogKeys_ok canonical
    have createdFull := matchRunKey_created found
    obtain ⟨same, -⟩ := List.cons.inj keys
    rw [← same] at found workflowKey
    rw [spelled] at workflowKey
    have names : workflowName = run.workflowName := by
      have rests : keyRest run.workflowName.toList (pad run.createdAt).toList run.runId.toList =
          workflowName.toList ++ ':' :: (created.toList ++ ':' :: run.runId.toList) := by
        simpa using workflowKey
      have tails := List.append_inj' rests
        (by simp only [List.length_cons, List.length_append, full, createdFull])
      exact String.toList_inj.mp tails.1.symm
    rw [matchRunKey_find spelled] at found
    obtain ⟨length, position, groups⟩ := Option.map_eq_some_iff.mp found
    have taken : (keyRest run.workflowName.toList (pad run.createdAt).toList run.runId.toList).take length =
        run.workflowName.toList := by
      have named := congrArg String.toList (Prod.mk.inj groups).1
      rw [String.toList_ofList, names] at named
      exact named
    have inside := (find?_last.mp position).1
    have lengths := congrArg List.length taken
    rw [List.length_take, Nat.min_eq_left (Nat.le_of_lt inside)] at lengths
    rw [← lengths]
    exact position
  · intro position
    have behind : (keyRest run.workflowName.toList (pad run.createdAt).toList run.runId.toList).drop
        (run.workflowName.toList.length + 1) = (pad run.createdAt).toList ++ ':' :: run.runId.toList := by
      rw [keyRest, ← List.drop_drop, List.drop_left, List.drop_one, List.tail_cons]
    have found : matchRunKey s!"run:{run.workflowName}:{pad run.createdAt}:{run.runId}" =
        some (run.workflowName, pad run.createdAt) := by
      rw [matchRunKey_find spelled, position, Option.map_some, behind]
      have digits : ((pad run.createdAt).toList ++ ':' :: run.runId.toList).take 13 =
          (pad run.createdAt).toList := by
        rw [← full, List.take_left]
      rw [digits, keyRest, List.take_left, String.ofList_toList, String.ofList_toList]
    have ends : (s!"run:{run.workflowName}:{pad run.createdAt}:{run.runId}").endsWith
        s!":{run.runId}" = true := by
      refine String.Slice.endsWith_string_iff.mpr ?_
      rw [String.copy_toSlice, spelled]
      refine ⟨'r' :: 'u' :: 'n' :: ':' :: (run.workflowName.toList ++ ':' :: (pad run.createdAt).toList), ?_⟩
      simp [toString, keyRest]
    refine ⟨(s!"run:{run.workflowName}:{pad run.createdAt}:{run.runId}",
      s!"runall:{pad run.createdAt}:{run.runId}"), ?_⟩
    unfold canonicalCatalogKeys runKeys
    simp only [found, ends, Bool.true_eq_false, ne_eq, not_true, or_self, if_false]

/-- A run as its catalog keys name it. -/
def keyedRun (workflowName : String) (createdAt : Nat) (runId : String) : WorkflowRun where
  runId
  deploymentId := "deployment"
  workflowName
  specVersion := 2
  executionContext := none
  attributes := []
  encryptionPublicKey := none
  input := .string ""
  status := .pending
  output := none
  error := none
  startedAt := none
  completedAt := none
  createdAt
  updatedAt := createdAt
  expiredAt := none

/-- What is accepted for a run ID are the keys of a run with that ID. -/
theorem canonicalCatalogKeys_sound {runId : String} {keys : List String} {canonicalKeys : String × String}
    (canonical : canonicalCatalogKeys runId keys = .ok canonicalKeys) :
    ∃ run : WorkflowRun, run.runId = runId ∧ run.workflowName ≠ "" ∧ run.createdAt < 10 ^ 13 ∧
      keys = runKeys run ∧
      keys = [canonicalKeys.1, canonicalKeys.2] := by
  obtain ⟨workflowName, created, found, pair, workflowKey, globalKey⟩ := canonicalCatalogKeys_ok canonical
  have spelled : canonicalKeys.1.toList = 'r' :: 'u' :: 'n' :: ':' :: keyRest workflowName.toList
      created.toList runId.toList := by
    rw [workflowKey]
    simp [keyRest]
  rw [matchRunKey_find spelled] at found
  obtain ⟨length, position, groups⟩ := Option.map_eq_some_iff.mp found
  have held := matchesAt_iff.mp (find?_last.mp position).2.1
  obtain ⟨front, digits, back, ⟨same, full, allDigits, -⟩, rfl, some_⟩ := held
  have behind : (keyRest workflowName.toList created.toList runId.toList).drop (front.length + 1) =
      digits ++ ':' :: back := by
    rw [same, ← List.drop_drop, List.drop_left, List.drop_one, List.tail_cons]
  have digitsTaken : (digits ++ ':' :: back).take 13 = digits := by rw [← full, List.take_left]
  rw [same, List.take_left, ← same, behind, digitsTaken] at groups
  obtain ⟨rfl, rfl⟩ := Prod.mk.inj groups
  obtain ⟨createdAt, fits, spelledDigits⟩ := PaddedDigits.exists_padded (by decide) full allDigits
  have created : pad createdAt = String.ofList digits :=
    String.toList_inj.mp ((pad_toList createdAt).trans (spelledDigits.trans String.toList_ofList.symm))
  refine ⟨keyedRun (String.ofList front) createdAt runId, rfl, ?_, fits, ?_, pair⟩
  · intro empty
    have none_ := congrArg String.toList empty
    rw [keyedRun, String.toList_ofList] at none_
    rw [none_] at some_
    exact absurd some_ (Nat.lt_irrefl 0)
  · rw [pair, runKeys, keyedRun, created]
    refine congrArg₂ (fun first second => [first, second]) (String.toList_inj.mp ?_) (String.toList_inj.mp ?_)
    · rw [workflowKey]
      simp [toString]
    · rw [globalKey]
      simp [toString]

variable {store after : RunCatalogStore}

/-- An expiry deletes the accepted pair of its run and no other entry. -/
theorem expireRun_pair {runId : String} {expiredAt deleted now : Nat}
    (call : expireRun runId expiredAt now store = .ok (deleted, after)) {key : String}
    (foreign : ∀ keys canonicalKeys, canonicalCatalogKeys runId keys = .ok canonicalKeys →
      key ≠ canonicalKeys.1 ∧ key ≠ canonicalKeys.2) : after.entries[key]? = store.entries[key]? := by
  unfold expireRun at call
  split at call
  · cases call
    rfl
  · obtain ⟨canonicalKeys, canonical, call⟩ := bind_ok.mp call
    obtain ⟨notFirst, notSecond⟩ := foreign _ _ canonical
    cases call
    have armed (store : RunCatalogStore) (at_ : Nat) : (armAtMost at_ store).entries = store.entries := by
      unfold armAtMost
      split <;> rfl
    simp only [armed, Std.ExtTreeMap.getElem?_erase, Std.LawfulEqCmp.compare_eq_iff_eq,
      notFirst.symm, notSecond.symm,
      if_false]

theorem upsertRun_pair {runId serializedMetadata : String} {keys : List String}
    {publicationExpiresAt now : Nat} {stored : Bool}
    (call : upsertRun runId keys serializedMetadata publicationExpiresAt now store = .ok (stored, after))
    {key : String}
    (foreign : ∀ keys canonicalKeys, canonicalCatalogKeys runId keys = .ok canonicalKeys →
      key ≠ canonicalKeys.1 ∧ key ≠ canonicalKeys.2) : after.entries[key]? = store.entries[key]? := by
  obtain ⟨canonicalKeys, canonical, ⟨-, rfl⟩ | ⟨-, entries⟩⟩ := upsertRun_entries call
  · rfl
  · obtain ⟨notFirst, notSecond⟩ := foreign _ _ canonical
    rw [entries, if_neg (not_or.mpr ⟨notFirst, notSecond⟩)]

/-- The keys of an accepted run are accepted for no other run ID. -/
theorem runKeys_foreign {run : WorkflowRun} {key runId : String} {canonicalKeys : String × String}
    (canonical : canonicalCatalogKeys run.runId (runKeys run) = .ok canonicalKeys) (mine : key ∈ runKeys run)
    (other : runId ≠ run.runId) (keys : List String) (otherKeys : String × String)
    (accepted : canonicalCatalogKeys runId keys = .ok otherKeys) : key ≠ otherKeys.1 ∧ key ≠ otherKeys.2 := by
  obtain ⟨-, -, -, pair, -⟩ := canonicalCatalogKeys_ok canonical
  rw [pair, List.mem_cons, List.mem_singleton] at mine
  refine ⟨fun same => ?_, fun same => ?_⟩
  · exact other (canonicalCatalogKeys_runId canonical accepted mine (.inl same)).symm
  · exact other (canonicalCatalogKeys_runId canonical accepted mine (.inr same)).symm

/-- The catalog accepts the keys of a run exactly where they are unambiguous, and then no call
for another run writes or deletes them. For a run ID it accepts the keys of its runs alone. -/
theorem canonicalCatalogKeys_unambiguous (run : WorkflowRun) (named : run.workflowName ≠ "")
    (fits : run.createdAt < 10 ^ 13) :
    ((∃ canonicalKeys, canonicalCatalogKeys run.runId (runKeys run) = .ok canonicalKeys) ↔
        Unambiguous run.workflowName run.runId) ∧
      (Unambiguous run.workflowName run.runId → ∀ key ∈ runKeys run, ∀ runId ≠ run.runId, ∀ store after now,
        (∀ keys serializedMetadata publicationExpiresAt stored,
          upsertRun runId keys serializedMetadata publicationExpiresAt now store = .ok (stored, after) →
            after.entries[key]? = store.entries[key]?) ∧
        ∀ expiredAt deleted, expireRun runId expiredAt now store = .ok (deleted, after) →
          after.entries[key]? = store.entries[key]?) ∧
      ∀ runId keys canonicalKeys, canonicalCatalogKeys runId keys = .ok canonicalKeys →
        ∃ source : WorkflowRun, source.runId = runId ∧ source.workflowName ≠ "" ∧ source.createdAt < 10 ^ 13 ∧
          keys = runKeys source ∧ keys = [canonicalKeys.1, canonicalKeys.2] := by
  have accepted := canonicalCatalogKeys_runKeys named fits
  refine ⟨accepted, fun unambiguous key mine runId other store after now => ?_, fun _ _ _ =>
    canonicalCatalogKeys_sound⟩
  obtain ⟨canonicalKeys, canonical⟩ := accepted.mpr unambiguous
  have foreign := runKeys_foreign canonical mine other
  exact ⟨fun _ _ _ _ call => upsertRun_pair call foreign, fun _ _ call => expireRun_pair call foreign⟩

theorem canonicalCatalogKeys_unambiguous_colon : ∃ canonicalKeys,
    canonicalCatalogKeys "a:b" (runKeys (keyedRun "workflow" 1700000000000 "a:b")) = .ok canonicalKeys := by
  refine (canonicalCatalogKeys_unambiguous (keyedRun "workflow" 1700000000000 "a:b") (by decide)
    (by decide)).1.mpr ?_
  refine ⟨by decide, ?_⟩
  rintro ⟨front, digits, back, split, full, -⟩
  have short : (':' :: "a:b".toList).length = 4 := by decide
  have lengths := short.symm.trans (congrArg List.length split)
  simp only [List.length_append, List.length_cons, full] at lengths
  omega

/-- A run ID with a timestamp in it makes the greedy group run past the creation time. -/
theorem canonicalCatalogKeys_timestamp : canonicalCatalogKeys "a:1234567890123:b"
    (runKeys (keyedRun "workflow" 1700000000000 "a:1234567890123:b")) =
      .error (.error "Run catalog commit requires the canonical run key pair") := by
  decide +kernel

end RunCatalogDO

end CelldWorld
