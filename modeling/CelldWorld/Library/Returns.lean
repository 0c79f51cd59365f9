import CelldWorld.Library.Guarantee

/-! What a program knows when it returns, in a protocol in which parties only gather
facts. Rights are passed along untouched. -/

namespace Interleaving
namespace Protocol
variable {Op : Type → Type} {Task ε χ σ α β : Type} {S : System Op Task ε χ σ} (P : Protocol S)

/-- From `state` on, the program meets the needs of its operations, and where it returns a
value, `post` holds. -/
def Returns (program : Prog Op ε α) (state : σ) (post : α → σ → Prop) : Prop :=
  ∀ mine, P.Safe program mine state fun returned _ later => ∀ value, returned = .ok value → post value later

/-- A condition that the others do not spoil. -/
def Lasting (post : α → σ → Prop) : Prop :=
  ∀ value before later, P.Knows before later → post value before → post value later

variable {P} {state later : σ} {post : α → σ → Prop}

theorem Returns.mono {program : Prog Op ε α} (returns : P.Returns program state post)
    (knows : P.Knows state later) : P.Returns program later post :=
  fun mine => (returns mine).mono knows

theorem Returns.weaken {program : Prog Op ε α} {post' : α → σ → Prop} (returns : P.Returns program state post)
    (implies : ∀ value later, P.Knows state later → post value later → post' value later) :
    P.Returns program state post' :=
  fun mine => (returns mine).weaken fun _ _ later knows held value same =>
    implies value later knows (held value same)

theorem Returns.pure {value : α} (holds : ∀ later, P.Knows state later → post value later) :
    P.Returns (Prog.pure value : Prog Op ε α) state post := by
  intro mine later knows other same
  obtain rfl := Except.ok.inj same
  exact holds later knows

theorem Returns.throw {error : ε} : P.Returns (Prog.throw error : Prog Op ε α) state post := by
  intro mine later _ value same
  cases same

theorem Returns.ofExcept {value : Except ε α}
    (holds : ∀ result, value = .ok result → ∀ later, P.Knows state later → post result later) :
    P.Returns (Prog.ofExcept value) state post :=
  fun _ => .ofExcept fun later knows result same => holds result same later knows

theorem Returns.bind {program : Prog Op ε α} {next : α → Prog Op ε β} {middle : α → σ → Prop}
    {post : β → σ → Prop} (returns : P.Returns program state middle)
    (goes : ∀ value later, P.Knows state later → middle value later → P.Returns (next value) later post) :
    P.Returns (program.bind next) state post := by
  intro mine
  refine Safe.bind ((returns mine).weaken fun returned back later knows held => ?_)
  cases returned with
  | ok value => exact goes value later knows (held value rfl) back
  | error error =>
    intro last _ value same
    cases same

/-- `bind` for a condition that is named. -/
theorem Returns.through {program : Prog Op ε α} {next : α → Prog Op ε β} {post : β → σ → Prop}
    (middle : α → σ → Prop) (returns : P.Returns program state middle)
    (goes : ∀ value later, P.Knows state later → middle value later → P.Returns (next value) later post) :
    P.Returns (program.bind next) state post :=
  returns.bind goes

/-- A program of whose value nothing is known. -/
theorem Returns.bind_any {program : Prog Op ε α} {next : α → Prog Op ε β} {post : β → σ → Prop}
    (returns : P.Returns program state fun _ _ => True)
    (goes : ∀ value later, P.Knows state later → P.Returns (next value) later post) :
    P.Returns (program.bind next) state post :=
  returns.bind fun value later knows _ => goes value later knows

/-- Its value is passed on, changed or dropped. -/
theorem Returns.map_any {program : Prog Op ε α} {next : α → β}
    (returns : P.Returns program state fun _ _ => True) :
    P.Returns (program.bind fun value => .pure (next value)) state fun _ _ => True :=
  returns.bind_any fun _ _ _ => .pure fun _ _ => trivial

theorem Returns.perform {op : Op α}
    (meets : ∀ later mine others, P.Knows state later → P.inv later (mine ∪ others) → S.admits later op = true →
      P.needs later mine op ∧ ∀ choice answer after, S.exec op choice later = some (answer, after) →
        P.Knows later after →
        ∀ last, P.Knows after last → post answer last) : P.Returns (Prog.perform op) state post := by
  intro mine
  refine Safe.perform fun later others knows _ inv admitted => ?_
  obtain ⟨needs, holds⟩ := meets later mine others knows inv admitted
  refine ⟨needs, fun choice answer after run tail _ last more value same => ?_⟩
  obtain rfl := Except.ok.inj same
  exact holds choice answer after run tail last more

/-- An operation of whose answer nothing is known. -/
theorem Returns.perform_any {op : Op α} (needs : ∀ later mine, P.Knows state later → P.needs later mine op) :
    P.Returns (Prog.perform op) state fun _ _ => True := by
  refine .perform fun later mine others knows _ _ => ⟨needs later mine knows, ?_⟩
  intro choice answer after run tail last more
  trivial

/-- A program whose operations need nothing. -/
theorem Returns.of_only {program : Prog Op ε α}
    (only : program.Only fun op => ∀ state mine, P.needs state mine op) :
    P.Returns program state fun _ _ => True :=
  fun _ => (Safe.of_only only).weaken fun _ _ _ _ _ _ _ => trivial

theorem Returns.remote {program : Prog Op ε α} (returns : P.Returns program state post)
    (lasting : P.Lasting post) : P.Returns program.remote state post := by
  intro mine
  refine Safe.remote ((returns mine).weaken fun returned back later _ held last knows value same => ?_)
    fun error later _ value same => ?_
  · exact lasting value later last knows (held value same)
  · cases same

theorem Returns.attempt {program : Prog Op ε α} (returns : P.Returns program state post)
    (lasting : P.Lasting post) :
    P.Returns program.attempt state fun returned later => ∀ value, returned = .ok value → post value later := by
  intro mine
  refine Safe.attempt ((returns mine).weaken
    fun returned back later _ held last knows outcome same value ended => ?_)
  obtain rfl := Except.ok.inj same
  exact lasting value later last knows (held value ended)

theorem Returns.any {program : Prog Op ε α} (returns : P.Returns program state post) :
    P.Returns program state fun _ _ => True :=
  returns.weaken fun _ _ _ _ => trivial

theorem Returns.attempt_any {program : Prog Op ε α} (returns : P.Returns program state fun _ _ => True) :
    P.Returns program.attempt state fun _ _ => True :=
  (returns.attempt fun _ _ _ _ _ => trivial).any

/-- A call, whose caller goes on with the answer or without one. -/
theorem Returns.rpc {callee : Prog Op ε α} {next : Except ε α → Prog Op ε β} {middle : α → σ → Prop}
    {post : β → σ → Prop} (returns : P.Returns callee state middle)
    (goes : ∀ returned later, P.Knows state later → (∀ value, returned = .ok value → middle value later) →
      P.Returns (next returned) later post)
    (lost : ∀ error, P.Returns (next (.error error)) state post) :
    P.Returns (.rpc callee next) state post := by
  intro mine
  refine ⟨mine, ∅, (Set.union_empty mine).symm, Set.disjoint_empty mine, ?_, fun error => lost error ∅⟩
  exact (returns mine).weaken fun returned back later knows held => goes returned later knows held (back ∪ ∅)

/-- A party that nobody waits for. -/
theorem Returns.discard {program : Prog Op ε α} (returns : P.Returns program state post) :
    P.Returns program.discard state fun _ _ => True :=
  returns.rpc (fun _ _ _ _ => .pure fun _ _ => trivial) fun _ => .pure fun _ _ => trivial

/-- Programs side by side: each result is what its own program returns. -/
theorem Returns.forkAll {ι : Type _} {entries : List ι} {program : ι → Prog Op ε α} {post : ι → α → σ → Prop}
    (lasting : ∀ entry, P.Lasting (post entry))
    (returns : ∀ entry ∈ entries, P.Returns (program entry) state (post entry)) :
    P.Returns (Prog.forkAll (entries.map program)) state fun results later =>
      List.Forall₂ (fun entry result => ∀ value, result = .ok value → post entry value later)
        entries results := by
  induction entries with
  | nil => exact .pure fun _ _ => .nil
  | cons entry entries ih =>
    have first := returns entry (.head _)
    have rest := ih fun other member => returns other (.tail _ member)
    intro mine
    refine ⟨∅, ∅, mine, _, _, by simp, Set.empty_disjoint _, Set.empty_disjoint _, first ∅, rest ∅, ?_, ?_, ?_⟩
    · exact fun returned _ before later held knows value same =>
        lasting entry value before later knows (held value same)
    · intro returned _ before later held knows results same
      exact (held results same).imp fun other result holds value returned =>
        lasting other value before later knows (holds value returned)
    · intro one two backLeft backRight later knows heldLeft heldRight
      cases two with
      | error error =>
        intro last _ value same
        cases same
      | ok results =>
        intro last more value same
        obtain rfl := Except.ok.inj same
        refine .cons (fun value returned => lasting entry value later last more (heldLeft value returned)) ?_
        exact (heldRight results rfl).imp fun other result holds value returned =>
          lasting other value later last more (holds value returned)

/-- Programs side by side, of whose results nothing is known. -/
theorem Returns.forkAll_any {programs : List (Prog Op ε α)}
    (returns : ∀ program ∈ programs, P.Returns program state fun _ _ => True) :
    P.Returns (Prog.forkAll programs) state fun _ _ => True := by
  have each : ∀ program ∈ programs, P.Returns (id program) state fun _ _ => True := returns
  have named := Returns.forkAll (fun _ _ _ _ _ _ => trivial) each
  rw [List.map_id] at named
  exact named.any

end Protocol

end Interleaving
