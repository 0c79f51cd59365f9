import Mathlib.Data.Set.Lattice
import Mathlib.Order.CompletePartialOrder
import CelldWorld.Library.Traces

/-! Rely-guarantee reasoning for interleaved programs: all parties keep one invariant and
one stock of facts that are never forgotten, and each party has rights of its own. -/

namespace Interleaving

/-- A guarantee of all parties: an invariant of the state and of the rights that parties
have, facts that stay true once they hold, what every operation needs, and the rights
that it leaves to its party. -/
structure Protocol {Op : Type → Type} {Task ε χ σ : Type} (S : System Op Task ε χ σ) where
  Fact : Type
  Right : Type
  inv : σ → Set Right → Prop
  holds : σ → Fact → Prop
  needs : σ → Set Right → {β : Type} → Op β → Prop
  leaves : {β : Type} → Op β → β → Set Right → Set Right
  keeps : ∀ {β : Type} {op : Op β} {choice : χ} {before after : σ} {answer : β} {mine others : Set Right},
    inv before (mine ∪ others) → Disjoint mine others → needs before mine op → S.admits before op = true →
    S.exec op choice before = some (answer, after) → inv after (leaves op answer mine ∪ others) ∧
      Disjoint (leaves op answer mine) others ∧ ∀ fact, holds before fact → holds after fact
  drops : ∀ {state : σ} {held rest : Set Right}, inv state held → rest ⊆ held → inv state rest

namespace Protocol
variable {Op : Type → Type} {Task ε χ σ α β γ : Type} {S : System Op Task ε χ σ} (P : Protocol S)

/-- Everything known of the first state is known of the second. -/
def Knows (before after : σ) : Prop := ∀ fact, P.holds before fact → P.holds after fact

variable {P}

theorem Knows.refl {state : σ} : P.Knows state state :=
  fun _ holds => holds

theorem Knows.trans {first middle last : σ} (head : P.Knows first middle) (tail : P.Knows middle last) :
    P.Knows first last :=
  fun fact holds => tail fact (head fact holds)

variable (P)

/-- What a program ends in: its result, the rights it has then, and the state. -/
abbrev Post (α : Type) := Except ε α → Set P.Right → σ → Prop

/-- A postcondition that the others do not spoil. -/
def Stable (post : P.Post α) : Prop :=
  ∀ returned mine before later, post returned mine before → P.Knows before later → post returned mine later

/-- From `state` on, whatever the other parties do, the program meets the needs of each
of its operations with the rights it has, and ends in `post`. A callee runs with the
rights that it is lent, and keeps them when it is lost. -/
def Safe : {α : Type} → Prog Op ε α → Set P.Right → σ → P.Post α → Prop
  | _, .pure value, mine, state, post => ∀ later, P.Knows state later → post (.ok value) mine later
  | _, .throw error, mine, state, post => ∀ later, P.Knows state later → post (.error error) mine later
  | _, .call op next, mine, state, post => ∀ later others, P.Knows state later → Disjoint mine others →
      P.inv later (mine ∪ others) → S.admits later op = true → P.needs later mine op ∧
        ∀ choice answer after, S.exec op choice later = some (answer, after) → P.Knows later after →
          P.inv after (P.leaves op answer mine ∪ others) → Safe (next answer) (P.leaves op answer mine) after post
  | _, .rpc callee next, mine, state, post => ∃ lent kept, mine = lent ∪ kept ∧ Disjoint lent kept ∧
      Safe callee lent state (fun returned back later => Safe (next returned) (back ∪ kept) later post) ∧
        ∀ error, Safe (next (.error error)) kept state post
  | _, .fork left right next, mine, state, post => ∃ mineLeft mineRight kept first second,
      mine = mineLeft ∪ (mineRight ∪ kept) ∧ Disjoint mineLeft (mineRight ∪ kept) ∧ Disjoint mineRight kept ∧
        Safe left mineLeft state first ∧ Safe right mineRight state second ∧ P.Stable first ∧ P.Stable second ∧
          ∀ one two backLeft backRight later, P.Knows state later → first one backLeft later →
            second two backRight later → Safe (next one two) (backLeft ∪ (backRight ∪ kept)) later post

variable {P} {mine : Set P.Right} {state later : σ} {post : P.Post α}

/-- What a program is safe for stays so as the others make progress. -/
theorem Safe.mono {program : Prog Op ε α} (safe : P.Safe program mine state post)
    (knows : P.Knows state later) : P.Safe program mine later post := by
  induction program generalizing mine state later with
  | pure value => exact fun last tail => safe last (knows.trans tail)
  | throw error => exact fun last tail => safe last (knows.trans tail)
  | call op next ih => exact fun last others tail => safe last others (knows.trans tail)
  | rpc callee next ihCallee ih =>
    obtain ⟨lent, kept, split, apart, safeCallee, lost⟩ := safe
    exact ⟨lent, kept, split, apart, ihCallee safeCallee knows, fun error => ih _ (lost error) knows⟩
  | fork left right next ihLeft ihRight ih =>
    obtain ⟨mineLeft, mineRight, kept, first, second, split, apart, apart', safeLeft, safeRight, stable,
      stable', safe⟩ := safe
    exact ⟨mineLeft, mineRight, kept, first, second, split, apart, apart', ihLeft safeLeft knows,
      ihRight safeRight knows,
      stable, stable', fun one two backLeft backRight last tail =>
        safe one two backLeft backRight last (knows.trans tail)⟩

theorem Safe.weaken {program : Prog Op ε α} {post' : P.Post α} (safe : P.Safe program mine state post)
    (implies : ∀ returned back later, P.Knows state later → post returned back later →
      post' returned back later) :
    P.Safe program mine state post' := by
  induction program generalizing mine state with
  | pure value => exact fun later knows => implies _ _ later knows (safe later knows)
  | throw error => exact fun later knows => implies _ _ later knows (safe later knows)
  | call op next ih =>
    intro later others knows apart inv admitted
    obtain ⟨needs, safe⟩ := safe later others knows apart inv admitted
    refine ⟨needs, fun choice answer after run tail inv => ?_⟩
    exact ih answer (safe choice answer after run tail inv)
      fun returned back last more => implies returned back last ((knows.trans tail).trans more)
  | rpc callee next ihCallee ih =>
    obtain ⟨lent, kept, split, apart, safeCallee, lost⟩ := safe
    refine ⟨lent, kept, split, apart, ihCallee safeCallee fun returned back later knows safe => ?_,
      fun error => ih _ (lost error) implies⟩
    exact ih returned safe fun returned back last more => implies returned back last (knows.trans more)
  | fork left right next ihLeft ihRight ih =>
    obtain ⟨mineLeft, mineRight, kept, first, second, split, apart, apart', safeLeft, safeRight, stable,
      stable', safe⟩ := safe
    refine ⟨mineLeft, mineRight, kept, first, second, split, apart, apart', safeLeft, safeRight, stable, stable',
      fun one two backLeft backRight later knows held held' => ?_⟩
    exact ih one two (safe one two backLeft backRight later knows held held')
      fun returned back last more => implies returned back last (knows.trans more)

theorem Safe.bind {program : Prog Op ε α} {next : α → Prog Op ε β} {post : P.Post β}
    (safe : P.Safe program mine state fun returned back later => match returned with
      | .ok value => P.Safe (next value) back later post
      | .error error => ∀ last, P.Knows later last → post (.error error) back last) :
    P.Safe (program.bind next) mine state post := by
  induction program generalizing mine state with
  | pure value => exact safe state .refl
  | throw error => exact safe state .refl
  | call op _ ih =>
    intro later others knows apart inv admitted
    obtain ⟨needs, safe⟩ := safe later others knows apart inv admitted
    exact ⟨needs, fun choice answer after run tail inv => ih answer (safe choice answer after run tail inv)⟩
  | rpc callee _ ihCallee ih =>
    obtain ⟨lent, kept, split, apart, safeCallee, lost⟩ := safe
    exact ⟨lent, kept, split, apart, safeCallee.weaken fun returned back later _ safe => ih returned safe,
      fun error => ih _ (lost error)⟩
  | fork left right _ ihLeft ihRight ih =>
    obtain ⟨mineLeft, mineRight, kept, first, second, split, apart, apart', safeLeft, safeRight, stable,
      stable', safe⟩ := safe
    exact ⟨mineLeft, mineRight, kept, first, second, split, apart, apart', safeLeft, safeRight, stable, stable',
      fun one two backLeft backRight later knows held held' =>
        ih one two (safe one two backLeft backRight later knows held held')⟩

theorem Safe.attempt {program : Prog Op ε α} {post : P.Post (Except ε α)}
    (safe : P.Safe program mine state fun returned back later => ∀ last, P.Knows later last →
      post (.ok returned) back last) :
    P.Safe program.attempt mine state post := by
  induction program generalizing mine state with
  | pure value => exact fun later knows => safe state .refl later knows
  | throw error => exact fun later knows => safe state .refl later knows
  | call op _ ih =>
    intro later others knows apart inv admitted
    obtain ⟨needs, safe⟩ := safe later others knows apart inv admitted
    exact ⟨needs, fun choice answer after run tail inv => ih answer (safe choice answer after run tail inv)⟩
  | rpc callee _ ihCallee ih =>
    obtain ⟨lent, kept, split, apart, safeCallee, lost⟩ := safe
    exact ⟨lent, kept, split, apart, safeCallee.weaken fun returned back later _ safe => ih returned safe,
      fun error => ih _ (lost error)⟩
  | fork left right _ ihLeft ihRight ih =>
    obtain ⟨mineLeft, mineRight, kept, first, second, split, apart, apart', safeLeft, safeRight, stable,
      stable', safe⟩ := safe
    exact ⟨mineLeft, mineRight, kept, first, second, split, apart, apart', safeLeft, safeRight, stable, stable',
      fun one two backLeft backRight later knows held held' =>
        ih one two (safe one two backLeft backRight later knows held held')⟩

theorem Safe.ofExcept {value : Except ε α} (ends : ∀ later, P.Knows state later → post value mine later) :
    P.Safe (Prog.ofExcept value) mine state post := by
  cases value with
  | ok value => exact ends
  | error error => exact ends

/-- A program whose operations need nothing. -/
theorem Safe.of_only {program : Prog Op ε α}
    (only : program.Only fun op => ∀ state mine, P.needs state mine op) :
    P.Safe program mine state fun _ _ _ => True := by
  induction program generalizing mine state with
  | pure value => exact fun _ _ => trivial
  | throw error => exact fun _ _ => trivial
  | call op next ih =>
    exact fun later _ _ _ _ _ => ⟨only.1 later mine, fun _ answer _ _ _ _ => ih answer (only.2 answer)⟩
  | rpc callee next ihCallee ih =>
    refine ⟨∅, mine, (Set.empty_union mine).symm, Set.empty_disjoint mine, ?_, fun error => ih _ (only.2 _)⟩
    exact (ihCallee only.1).weaken fun returned _ _ _ _ => ih returned (only.2 returned)
  | fork left right next ihLeft ihRight ih =>
    refine ⟨∅, ∅, mine, fun _ _ _ => True, fun _ _ _ => True, by simp, Set.empty_disjoint _, Set.empty_disjoint _,
      ihLeft only.1, ihRight only.2.1, fun _ _ _ _ _ _ => trivial, fun _ _ _ _ _ _ => trivial, ?_⟩
    exact fun one two _ _ _ _ _ _ => ih one two (only.2.2 one two)

/-- A callee that is lent all rights of its caller. -/
theorem Safe.remote {program : Prog Op ε α}
    (safe : P.Safe program mine state fun returned back later => ∀ last, P.Knows later last →
      post returned back last)
    (lost : ∀ error later, P.Knows state later → post (.error error) ∅ later) :
    P.Safe program.remote mine state post := by
  refine ⟨mine, ∅, (Set.union_empty mine).symm, Set.disjoint_empty mine,
    safe.weaken fun returned back later _ held => ?_,
    fun error => lost error⟩
  rw [Set.union_empty]
  exact .ofExcept held

/-- One operation, which goes on with the rights that it leaves. -/
theorem Safe.perform {op : Op α}
    (meets : ∀ later others, P.Knows state later → Disjoint mine others → P.inv later (mine ∪ others) →
      S.admits later op = true → P.needs later mine op ∧ ∀ choice answer after,
        S.exec op choice later = some (answer, after) → P.Knows later after →
          P.inv after (P.leaves op answer mine ∪ others) →
          ∀ last, P.Knows after last → post (.ok answer) (P.leaves op answer mine) last) :
    P.Safe (Prog.perform op) mine state post :=
  meets

/-- One operation of another party, which is lent all rights. -/
theorem Safe.call {op : Op (Except ε α)}
    (meets : ∀ later others, P.Knows state later → Disjoint mine others → P.inv later (mine ∪ others) →
      S.admits later op = true → P.needs later mine op ∧ ∀ choice answer after,
        S.exec op choice later = some (answer, after) → P.Knows later after →
          P.inv after (P.leaves op answer mine ∪ others) →
          ∀ last, P.Knows after last → post answer (P.leaves op answer mine) last)
    (lost : ∀ error later, P.Knows state later → post (.error error) ∅ later) :
    P.Safe (Prog.remote (.call op .ofExcept)) mine state post := by
  refine .remote (fun later others knows apart inv admitted => ?_) lost
  obtain ⟨needs, goes⟩ := meets later others knows apart inv admitted
  refine ⟨needs, fun choice answer after run tail held => .ofExcept fun last more => ?_⟩
  exact fun final most => goes choice answer after run tail held final (more.trans most)

theorem Safe.discard {program : Prog Op ε α} (safe : P.Safe program mine state post) :
    P.Safe program.discard mine state fun _ _ _ => True :=
  ⟨mine, ∅, (Set.union_empty mine).symm, Set.disjoint_empty mine, safe.weaken fun _ _ _ _ _ _ _ => trivial,
    fun _ _ _ => trivial⟩

/-- A step keeps a safe program safe, whatever rights the others have. -/
theorem Safe.step {program program' : Prog Op ε α} {path : List Side} {choice : χ} {state' : σ}
    {performed : Option (Performed Op)} {others : Set P.Right} (safe : P.Safe program mine state post)
    (apart : Disjoint mine others) (inv : P.inv state (mine ∪ others))
    (run : program.step S.exec path choice state = some (program', state', performed))
    (admits : ∀ step, performed = some step → S.admits state step.op = true) :
    ∃ mine', P.inv state' (mine' ∪ others) ∧ Disjoint mine' others ∧ P.Knows state state' ∧
      P.Safe program' mine' state' post := by
  induction program generalizing path mine others with
  | pure value => cases run
  | throw error => cases run
  | call op next ih =>
    obtain ⟨⟨answer, reached⟩, executed, same⟩ := Option.map_eq_some_iff.mp run
    cases same
    obtain ⟨needs, safe⟩ := safe state others .refl apart inv (admits _ rfl)
    obtain ⟨held, apart', knows⟩ := P.keeps inv apart needs (admits _ rfl) executed
    exact ⟨_, held, apart', knows, safe choice answer state' executed knows held⟩
  | rpc callee next ihCallee ih =>
    obtain ⟨lent, kept, rfl, split, safeCallee, lost⟩ := safe
    unfold Prog.step at run
    split at run
    · rename_i returned ended
      cases run
      refine ⟨lent ∪ kept, inv, apart, .refl, ?_⟩
      cases callee <;> simp only [Prog.result, reduceCtorEq, Option.some.injEq] at ended <;> subst ended <;>
        exact safeCallee state .refl
    · obtain ⟨⟨callee', after, done⟩, executed, same⟩ := Option.map_eq_some_iff.mp run
      cases same
      rw [Set.union_assoc] at inv
      obtain ⟨apartLent, apartKept⟩ := Set.disjoint_union_left.mp apart
      obtain ⟨lent', held, apart', knows, safe⟩ :=
        ihCallee safeCallee (Set.disjoint_union_right.mpr ⟨split, apartLent⟩) inv executed
      obtain ⟨split', apartLent'⟩ := Set.disjoint_union_right.mp apart'
      refine ⟨lent' ∪ kept, by rwa [Set.union_assoc],
        Set.disjoint_union_left.mpr ⟨apartLent', apartKept⟩, knows, ?_⟩
      exact ⟨lent', kept, rfl, split', safe, fun error => (lost error).mono knows⟩
  | fork left right next ihLeft ihRight ih =>
    obtain ⟨mineLeft, mineRight, kept, first, second, rfl, split, split', safeLeft, safeRight, stable,
      stable', safe⟩ := safe
    obtain ⟨apartLeft, apartRest⟩ := Set.disjoint_union_left.mp apart
    obtain ⟨apartRight, apartKept⟩ := Set.disjoint_union_left.mp apartRest
    obtain ⟨apartSides, splitKept⟩ := Set.disjoint_union_right.mp split
    unfold Prog.step at run
    split at run
    · rename_i one two endedLeft endedRight
      cases run
      refine ⟨_, inv, apart, .refl, safe one two mineLeft mineRight state .refl ?_ ?_⟩
      · cases left <;> simp only [Prog.result, reduceCtorEq, Option.some.injEq] at endedLeft <;>
          subst endedLeft <;> exact safeLeft state .refl
      · cases right <;> simp only [Prog.result, reduceCtorEq, Option.some.injEq] at endedRight <;>
          subst endedRight <;> exact safeRight state .refl
    · split at run
      · obtain ⟨⟨left', after, done⟩, executed, same⟩ := Option.map_eq_some_iff.mp run
        cases same
        rw [Set.union_assoc] at inv
        obtain ⟨mineLeft', held, apart', knows, safeLeft⟩ :=
          ihLeft safeLeft (Set.disjoint_union_right.mpr ⟨split, apartLeft⟩) inv executed
        obtain ⟨split, apartLeft⟩ := Set.disjoint_union_right.mp apart'
        refine ⟨mineLeft' ∪ (mineRight ∪ kept), by rwa [Set.union_assoc],
          Set.disjoint_union_left.mpr ⟨apartLeft, apartRest⟩,
          knows, mineLeft', mineRight, kept, first, second, rfl, split, split', safeLeft,
          safeRight.mono knows, stable, stable',
          fun one two backLeft backRight later tail => safe one two backLeft backRight later (knows.trans tail)⟩
      · obtain ⟨⟨right', after, done⟩, executed, same⟩ := Option.map_eq_some_iff.mp run
        cases same
        have order (rights : Set P.Right) :
            mineLeft ∪ (rights ∪ kept) ∪ others = rights ∪ (mineLeft ∪ (kept ∪ others)) := by
          rw [Set.union_assoc, Set.union_assoc, Set.union_left_comm]
        rw [order] at inv
        obtain ⟨mineRight', held, apart', knows, safeRight⟩ := ihRight safeRight
          (Set.disjoint_union_right.mpr ⟨apartSides.symm, Set.disjoint_union_right.mpr ⟨split', apartRight⟩⟩)
            inv executed
        obtain ⟨apartSides, apart'⟩ := Set.disjoint_union_right.mp apart'
        obtain ⟨split', apartRight⟩ := Set.disjoint_union_right.mp apart'
        rw [← order] at held
        refine ⟨mineLeft ∪ (mineRight' ∪ kept), held, Set.disjoint_union_left.mpr ⟨apartLeft,
            Set.disjoint_union_left.mpr ⟨apartRight, apartKept⟩⟩, knows, mineLeft, mineRight',
              kept, first, second, rfl,
          Set.disjoint_union_right.mpr ⟨apartSides.symm, splitKept⟩, split', safeLeft.mono knows,
          safeRight, stable, stable',
          fun one two backLeft backRight later tail => safe one two backLeft backRight later (knows.trans tail)⟩
      · cases run

/-- A safe program performs no operation that lacks what it needs. -/
theorem Safe.needs {program program' : Prog Op ε α} {path : List Side} {choice : χ} {state' : σ}
    {performed : Performed Op} {others : Set P.Right} (safe : P.Safe program mine state post)
    (apart : Disjoint mine others) (inv : P.inv state (mine ∪ others))
    (run : program.step S.exec path choice state = some (program', state', some performed))
    (admits : S.admits state performed.op = true) : ∃ held, P.needs state held performed.op := by
  induction program generalizing path mine others with
  | pure | throw => cases run
  | call op next ih =>
    obtain ⟨⟨answer, reached⟩, executed, same⟩ := Option.map_eq_some_iff.mp run
    cases same
    exact ⟨mine, (safe state others .refl apart inv admits).1⟩
  | rpc callee next ihCallee ih =>
    obtain ⟨lent, kept, rfl, split, safeCallee, -⟩ := safe
    obtain ⟨apartLent, -⟩ := Set.disjoint_union_left.mp apart
    rw [Set.union_assoc] at inv
    unfold Prog.step at run
    split at run
    · cases run
    · obtain ⟨⟨callee', after, done⟩, executed, same⟩ := Option.map_eq_some_iff.mp run
      cases same
      exact ihCallee safeCallee (Set.disjoint_union_right.mpr ⟨split, apartLent⟩) inv executed
  | fork left right next ihLeft ihRight ih =>
    obtain ⟨mineLeft, mineRight, kept, first, second, rfl, split, split', safeLeft, safeRight, -⟩ := safe
    obtain ⟨apartLeft, apartRest⟩ := Set.disjoint_union_left.mp apart
    obtain ⟨apartRight, -⟩ := Set.disjoint_union_left.mp apartRest
    obtain ⟨apartSides, -⟩ := Set.disjoint_union_right.mp split
    unfold Prog.step at run
    split at run
    · cases run
    split at run
    · obtain ⟨⟨left', after, done⟩, executed, same⟩ := Option.map_eq_some_iff.mp run
      cases same
      rw [Set.union_assoc] at inv
      exact ihLeft safeLeft (Set.disjoint_union_right.mpr ⟨split, apartLeft⟩) inv executed
    · obtain ⟨⟨right', after, done⟩, executed, same⟩ := Option.map_eq_some_iff.mp run
      cases same
      rw [Set.union_assoc, Set.union_assoc, Set.union_left_comm] at inv
      exact ihRight safeRight (Set.disjoint_union_right.mpr ⟨apartSides.symm,
        Set.disjoint_union_right.mpr ⟨split', apartRight⟩⟩) inv executed
    · cases run

/-- A lost call leaves a safe caller and a safe orphan, and each has its part of the rights. -/
theorem Safe.lose {program program' : Prog Op ε α} {orphan : Prog Op ε Unit} {path : List Side} {error : ε}
    (safe : P.Safe program mine state post) (lost : program.lose path error = some (program', orphan)) :
    ∃ mine' lent, mine' ∪ lent ⊆ mine ∧ Disjoint mine' lent ∧ P.Safe program' mine' state post ∧
      P.Safe orphan lent state fun _ _ _ => True := by
  induction program generalizing path mine with
  | pure value => cases lost
  | throw error => cases lost
  | call op next ih => cases lost
  | rpc callee next ihCallee ih =>
    obtain ⟨lent, kept, rfl, split, safeCallee, failed⟩ := safe
    unfold Prog.lose at lost
    split at lost
    · cases lost
      exact ⟨kept, lent, (Set.union_comm kept lent).subset, split.symm, failed error, safeCallee.discard⟩
    · obtain ⟨⟨callee', other⟩, executed, same⟩ := Option.map_eq_some_iff.mp lost
      cases same
      obtain ⟨mine', lent', sub, apart, safe, safeOrphan⟩ := ihCallee safeCallee executed
      obtain ⟨subMine, subLent⟩ := Set.union_subset_iff.mp sub
      refine ⟨mine' ∪ kept, lent', ?_, ?_, ⟨mine', kept, rfl, split.mono_left subMine, safe, failed⟩, safeOrphan⟩
      · exact Set.union_subset (Set.union_subset_union_left kept subMine) (subLent.trans Set.subset_union_left)
      · exact Set.disjoint_union_left.mpr ⟨apart, (split.mono_left subLent).symm⟩
    · cases lost
  | fork left right next ihLeft ihRight ih =>
    obtain ⟨mineLeft, mineRight, kept, first, second, rfl, split, split', safeLeft, safeRight, rest⟩ := safe
    obtain ⟨apartSides, splitKept⟩ := Set.disjoint_union_right.mp split
    unfold Prog.lose at lost
    split at lost
    · obtain ⟨⟨left', other⟩, executed, same⟩ := Option.map_eq_some_iff.mp lost
      cases same
      obtain ⟨mine', lent, sub, apart, safe, safeOrphan⟩ := ihLeft safeLeft executed
      obtain ⟨subMine, subLent⟩ := Set.union_subset_iff.mp sub
      refine ⟨mine' ∪ (mineRight ∪ kept), lent, ?_, ?_, ⟨mine', mineRight, kept, first, second, rfl,
        split.mono_left subMine, split', safe, safeRight, rest⟩, safeOrphan⟩
      · exact Set.union_subset (Set.union_subset_union_left _ subMine) (subLent.trans Set.subset_union_left)
      · exact Set.disjoint_union_left.mpr ⟨apart, (split.mono_left subLent).symm⟩
    · obtain ⟨⟨right', other⟩, executed, same⟩ := Option.map_eq_some_iff.mp lost
      cases same
      obtain ⟨mine', lent, sub, apart, safe, safeOrphan⟩ := ihRight safeRight executed
      obtain ⟨subMine, subLent⟩ := Set.union_subset_iff.mp sub
      refine ⟨mineLeft ∪ (mine' ∪ kept), lent, ?_, ?_, ⟨mineLeft, mine', kept, first, second, rfl,
        Set.disjoint_union_right.mpr ⟨apartSides.mono_right subMine, splitKept⟩, split'.mono_left subMine,
        safeLeft, safe, rest⟩, safeOrphan⟩
      · refine Set.union_subset (Set.union_subset_union_right _ (Set.union_subset_union_left _ subMine)) ?_
        exact subLent.trans (Set.subset_union_left.trans Set.subset_union_right)
      · exact Set.disjoint_union_left.mpr ⟨apartSides.mono_right subLent,
          Set.disjoint_union_left.mpr ⟨apart, (split'.mono_left subLent).symm⟩⟩
    · cases lost

section Runs
variable (P)

/-- The state keeps the invariant, every party at work is safe, and no two parties have
the same right. -/
structure Sound (pool : Pool Op ε σ) (owns : Nat → Set P.Right) : Prop where
  inv : P.inv pool.state (⋃ thread, owns thread)
  apart : ∀ first second, first ≠ second → Disjoint (owns first) (owns second)
  threads : ∀ (thread : Nat) program, pool.threads[thread]? = some program →
    P.Safe program (owns thread) pool.state fun _ _ _ => True

variable {P}
variable {before after : Pool Op ε σ} {performed : Option (Performed Op)} {owns : Nat → Set P.Right}

theorem iUnion_split (owns : Nat → Set P.Right) (thread : Nat) :
    ⋃ other, owns other = owns thread ∪ ⋃ (other : Nat) (_ : other ≠ thread), owns other := by
  ext right
  simp only [Set.mem_iUnion, Set.mem_union]
  constructor
  · rintro ⟨other, held⟩
    by_cases same : other = thread
    · exact .inl (same ▸ held)
    · exact .inr ⟨other, same, held⟩
  · rintro (held | ⟨other, -, held⟩)
    · exact ⟨thread, held⟩
    · exact ⟨other, held⟩

theorem iUnion_update (owns : Nat → Set P.Right) (thread : Nat) (mine : Set P.Right) :
    ⋃ other, Function.update owns thread mine other =
      mine ∪ ⋃ (other : Nat) (_ : other ≠ thread), owns other := by
  rw [iUnion_split, Function.update_self]
  congr 1
  refine Set.iUnion_congr fun other => Set.iUnion_congr fun different => ?_
  rw [Function.update_of_ne different]

theorem disjoint_rest (apart : ∀ first second, first ≠ second → Disjoint (owns first) (owns second))
    (thread : Nat) : Disjoint (owns thread) (⋃ (other : Nat) (_ : other ≠ thread), owns other) := by
  simp only [Set.disjoint_iUnion_right]
  exact fun other different => apart thread other different.symm

theorem apart_update (apart : ∀ first second, first ≠ second → Disjoint (owns first) (owns second))
    {thread : Nat}
    (mine : Set P.Right) (rest : Disjoint mine (⋃ (other : Nat) (_ : other ≠ thread), owns other))
    (first second : Nat) (different : first ≠ second) :
    Disjoint (Function.update owns thread mine first) (Function.update owns thread mine second) := by
  simp only [Set.disjoint_iUnion_right] at rest
  by_cases own : first = thread
  · subst own
    rw [Function.update_self, Function.update_of_ne different.symm]
    exact rest second different.symm
  · rw [Function.update_of_ne own]
    by_cases own' : second = thread
    · subst own'
      rw [Function.update_self]
      exact (rest first own).symm
    · rw [Function.update_of_ne own']
      exact apart first second different

/-- A party at work is replaced by another, with rights that the others do not have. -/
theorem Sound.replace (sound : P.Sound before owns) {thread : Nat} {program : Prog Op ε Unit} {state : σ}
    {mine : Set P.Right} (inv : P.inv state (mine ∪ ⋃ (other : Nat) (_ : other ≠ thread), owns other))
    (apart : Disjoint mine (⋃ (other : Nat) (_ : other ≠ thread), owns other))
    (knows : P.Knows before.state state) (safe : P.Safe program mine state fun _ _ _ => True) :
    P.Sound { state, threads := before.threads.set thread program } (Function.update owns thread mine) where
  inv := by rwa [iUnion_update]
  apart := apart_update sound.apart mine apart
  threads other program' found := by
    by_cases own : other = thread
    · subst own
      rw [Function.update_self]
      by_cases bound : other < before.threads.length
      · rw [List.getElem?_set_self bound] at found
        exact Option.some.inj found ▸ safe
      · rw [List.getElem?_eq_none (by simpa using bound)] at found
        cases found
    · rw [List.getElem?_set_ne (Ne.symm own)] at found
      rw [Function.update_of_ne own]
      exact (sound.threads other program' found).mono knows

/-- One more party, with rights that the others do not have. -/
theorem Sound.join (sound : P.Sound before owns) {program : Prog Op ε Unit} {mine : Set P.Right}
    (inv : P.inv before.state (mine ∪ ⋃ (other : Nat) (_ : other ≠ before.threads.length), owns other))
    (apart : Disjoint mine (⋃ (other : Nat) (_ : other ≠ before.threads.length), owns other))
    (safe : P.Safe program mine before.state fun _ _ _ => True) :
    P.Sound { before with threads := before.threads ++ [program] }
      (Function.update owns before.threads.length mine) where
  inv := by rwa [iUnion_update]
  apart := apart_update sound.apart mine apart
  threads thread other stored := by
    by_cases early : thread < before.threads.length
    · rw [List.getElem?_append_left early] at stored
      rw [Function.update_of_ne (Nat.ne_of_lt early)]
      exact sound.threads thread other stored
    · rw [List.getElem?_append_right (Nat.le_of_not_lt early)] at stored
      obtain ⟨bound, rfl⟩ := List.getElem?_eq_some_iff.mp stored
      have last : thread = before.threads.length := by
        simp only [List.length_singleton] at bound
        omega
      simpa [last] using safe

theorem Sound.step (sound : P.Sound before owns)
    (spawned : ∀ task state, S.spawns task = true → P.Safe (S.program task) ∅ state fun _ _ _ => True)
    (step : S.Step before performed after) :
    (∃ owns', P.Sound after owns') ∧ P.Knows before.state after.state := by
  obtain ⟨⟨action, acts⟩, admits⟩ := step
  have others_subset (thread : Nat) : ⋃ (other : Nat) (_ : other ≠ thread), owns other ⊆ ⋃ other, owns other :=
    Set.iUnion₂_subset fun other _ => Set.subset_iUnion owns other
  cases action with
  | spawn task =>
    simp only [System.act] at acts
    split at acts
    · rename_i starts
      cases acts
      refine ⟨⟨_, sound.join (P.drops sound.inv ?_) (Set.empty_disjoint _) (spawned task _ starts)⟩, .refl⟩
      rw [Set.empty_union]
      exact others_subset _
    · cases acts
  | advance thread path choice =>
    simp only [System.act] at acts
    split at acts
    · cases acts
    rename_i program stored
    obtain ⟨⟨program', state, done⟩, run, same⟩ := Option.map_eq_some_iff.mp acts
    cases same
    have inv := sound.inv
    rw [iUnion_split owns thread] at inv
    obtain ⟨mine, held, apart, knows, safe⟩ := (sound.threads thread program stored).step
      (disjoint_rest sound.apart thread) inv run admits
    exact ⟨⟨_, sound.replace held apart knows safe⟩, knows⟩
  | lose thread path error =>
    simp only [System.act] at acts
    split at acts
    · cases acts
    rename_i program stored
    obtain ⟨⟨program', orphan⟩, lost, same⟩ := Option.map_eq_some_iff.mp acts
    cases same
    obtain ⟨mine, lent, sub, apart, safe, safeOrphan⟩ := (sound.threads thread program stored).lose lost
    obtain ⟨subMine, subLent⟩ := Set.union_subset_iff.mp sub
    have apartMine := (disjoint_rest sound.apart thread).mono_left subMine
    have inv : P.inv before.state (mine ∪ ⋃ (other : Nat) (_ : other ≠ thread), owns other) :=
      P.drops sound.inv (Set.union_subset (subMine.trans (Set.subset_iUnion owns thread)) (others_subset thread))
    have caller := sound.replace inv apartMine .refl safe
    -- The orphan takes the rights that it was lent out of those of its caller.
    have apartLent : ∀ other, Disjoint lent (Function.update owns thread mine other) := by
      intro other
      by_cases own : other = thread
      · rw [own, Function.update_self]
        exact apart.symm
      · rw [Function.update_of_ne own]
        exact (sound.apart thread other (Ne.symm own)).mono_left subLent
    refine ⟨⟨_, caller.join (P.drops sound.inv
      (Set.union_subset (subLent.trans (Set.subset_iUnion owns thread)) ?_)) ?_
      safeOrphan⟩, .refl⟩
    · refine Set.iUnion₂_subset fun other _ => ?_
      by_cases own : other = thread
      · rw [own, Function.update_self]
        exact subMine.trans (Set.subset_iUnion owns thread)
      · rw [Function.update_of_ne own]
        exact Set.subset_iUnion owns other
    · simp only [Set.disjoint_iUnion_right]
      exact fun other _ => apartLent other
  | stop thread =>
    cases acts
    refine ⟨⟨_, sound.replace (P.drops sound.inv ?_) (Set.empty_disjoint _) .refl fun _ _ => trivial⟩, .refl⟩
    rw [Set.empty_union]
    exact others_subset thread

/-- Every operation of a run finds what it needs. -/
theorem Sound.needs {performed : Performed Op} (sound : P.Sound before owns)
    (step : S.Step before (some performed) after) : ∃ held, P.needs before.state held performed.op := by
  obtain ⟨⟨action, acts⟩, admits⟩ := step
  cases action with
  | advance thread path choice =>
    simp only [System.act] at acts
    split at acts
    · cases acts
    rename_i program stored
    obtain ⟨⟨program', state, done⟩, run, same⟩ := Option.map_eq_some_iff.mp acts
    cases same
    have inv := sound.inv
    rw [iUnion_split owns thread] at inv
    exact (sound.threads thread program stored).needs (disjoint_rest sound.apart thread) inv run (admits _ rfl)
  | spawn task =>
    simp only [System.act] at acts
    split at acts <;> cases acts
  | lose thread path error =>
    simp only [System.act] at acts
    split at acts
    · cases acts
    · obtain ⟨_, -, same⟩ := Option.map_eq_some_iff.mp acts
      cases same
  | stop thread => cases acts

/-- The invariant holds in every reachable state, and nothing known is forgotten. -/
theorem Sound.leads (sound : P.Sound before owns)
    (spawned : ∀ task state, S.spawns task = true → P.Safe (S.program task) ∅ state fun _ _ _ => True)
    (path : S.Leads before after) : (∃ owns', P.Sound after owns') ∧ P.Knows before.state after.state := by
  induction path with
  | start => exact ⟨⟨owns, sound⟩, .refl⟩
  | next path step ih =>
    obtain ⟨⟨owns', sofar⟩, knows⟩ := ih
    obtain ⟨held, knows'⟩ := sofar.step spawned step
    exact ⟨held, knows.trans knows'⟩

end Runs

end Protocol

end Interleaving
