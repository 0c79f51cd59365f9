import CelldWorld.Library.Interleaving

/-! What one program does while others are at work: the operations that it performs, each
with any answer, until it ends or stops. -/

namespace Interleaving

/-- An operation that was performed, with the states before and after it. -/
structure Moment (Op : Type → Type) (σ : Type) extends Performed Op where
  before : σ
  after : σ

/-- A merge of two lists. -/
inductive Merges {α : Type _} : List α → List α → List α → Prop
  | nil : Merges [] [] []
  | left {first second both : List α} (value : α) : Merges first second both →
      Merges (value :: first) second (value :: both)
  | right {first second both : List α} (value : α) : Merges first second both →
      Merges first (value :: second) (value :: both)

theorem Merges.mem_iff {α : Type _} {first second both : List α} {value : α} (merges : Merges first second both) :
    value ∈ both ↔ value ∈ first ∨ value ∈ second := by
  induction merges with
  | nil => simp
  | left other _ ih => simp [ih, or_assoc]
  | right other _ ih => simp [ih, or_left_comm]

namespace Prog
variable {Op Op' : Type → Type} {ε α β : Type}

/-- The operations of a program up to its end, or up to where it stopped. A call that is
lost leaves nothing here: what its callee does, it does among the others. -/
def Emits : {α : Type} → Prog Op ε α → List (Performed Op) → Option (Except ε α) → Prop
  | _, .pure value, trace, ended => trace = [] ∧ (ended = none ∨ ended = some (.ok value))
  | _, .throw error, trace, ended => trace = [] ∧ (ended = none ∨ ended = some (.error error))
  | _, .call op next, trace, ended => (trace = [] ∧ ended = none) ∨
      ∃ answer rest, trace = ⟨op, answer⟩ :: rest ∧ (next answer).Emits rest ended
  | _, .rpc callee next, trace, ended => (callee.Emits trace none ∧ ended = none) ∨
      (∃ returned head tail, trace = head ++ tail ∧ callee.Emits head (some returned) ∧
        (next returned).Emits tail ended) ∨
      ∃ error, (next (.error error)).Emits trace ended
  | _, .fork left right next, trace, ended => ∃ one two first second head tail, trace = head ++ tail ∧
      left.Emits first one ∧ right.Emits second two ∧ Merges first second head ∧
      ((tail = [] ∧ ended = none) ∨
        ∃ left right, one = some left ∧ two = some right ∧ (next left right).Emits tail ended)

/-- A sequence of programs ends in the first one, or runs it to its end and goes on. -/
theorem emits_bind {program : Prog Op ε α} {next : α → Prog Op ε β} {trace : List (Performed Op)}
    {ended : Option (Except ε β)} (emits : (program.bind next).Emits trace ended) :
    (ended = none ∧ program.Emits trace none) ∨
      (∃ error, ended = some (.error error) ∧ program.Emits trace (some (.error error))) ∨
      ∃ value head tail, trace = head ++ tail ∧ program.Emits head (some (.ok value)) ∧
        (next value).Emits tail ended := by
  induction program generalizing trace with
  | pure value => exact .inr (.inr ⟨value, [], trace, rfl, ⟨rfl, .inr rfl⟩, emits⟩)
  | throw error =>
    obtain ⟨rfl, rfl | rfl⟩ := emits
    · exact .inl ⟨rfl, rfl, .inl rfl⟩
    · exact .inr (.inl ⟨error, rfl, rfl, .inr rfl⟩)
  | call op rest ih =>
    rcases emits with ⟨rfl, rfl⟩ | ⟨answer, trace, rfl, emits⟩
    · exact .inl ⟨rfl, .inl ⟨rfl, rfl⟩⟩
    rcases ih answer emits with ⟨same, stops⟩ | ⟨error, same, throws⟩ | ⟨value, head, tail, rfl, ends, goes⟩
    · exact .inl ⟨same, .inr ⟨answer, trace, rfl, stops⟩⟩
    · exact .inr (.inl ⟨error, same, .inr ⟨answer, trace, rfl, throws⟩⟩)
    · exact .inr (.inr ⟨value, _ :: head, tail, rfl, .inr ⟨answer, head, rfl, ends⟩, goes⟩)
  | rpc callee rest _ ih =>
    rcases emits with ⟨stops, same⟩ | ⟨returned, before, after, rfl, returns, emits⟩ | ⟨error, emits⟩
    · exact .inl ⟨same, .inl ⟨stops, rfl⟩⟩
    · rcases ih returned emits with ⟨same, stops⟩ | ⟨error, same, throws⟩ | ⟨value, head, tail, rfl, ends, goes⟩
      · exact .inl ⟨same, .inr (.inl ⟨returned, before, after, rfl, returns, stops⟩)⟩
      · exact .inr (.inl ⟨error, same, .inr (.inl ⟨returned, before, after, rfl, returns, throws⟩)⟩)
      · refine .inr (.inr ⟨value, before ++ head, tail, (List.append_assoc ..).symm, ?_, goes⟩)
        exact .inr (.inl ⟨returned, before, head, rfl, returns, ends⟩)
    · rcases ih (.error error) emits with ⟨same, stops⟩ | ⟨error', same, throws⟩ |
        ⟨value, head, tail, rfl, ends, goes⟩
      · exact .inl ⟨same, .inr (.inr ⟨error, stops⟩)⟩
      · exact .inr (.inl ⟨error', same, .inr (.inr ⟨error, throws⟩)⟩)
      · exact .inr (.inr ⟨value, head, tail, rfl, .inr (.inr ⟨error, ends⟩), goes⟩)
  | fork left right rest _ _ ih =>
    obtain ⟨one, two, first, second, before, after, rfl, emitsLeft, emitsRight, merges, emits⟩ := emits
    rcases emits with ⟨rfl, rfl⟩ | ⟨left', right', rfl, rfl, emits⟩
    · exact .inl ⟨rfl, one, two, first, second, before, [], rfl, emitsLeft, emitsRight, merges, .inl ⟨rfl, rfl⟩⟩
    rcases ih left' right' emits with ⟨same, stops⟩ | ⟨error, same, throws⟩ | ⟨value, head, tail, rfl, ends, goes⟩
    · exact .inl ⟨same, _, _, first, second, before, after, rfl, emitsLeft, emitsRight, merges,
        .inr ⟨left', right', rfl, rfl, stops⟩⟩
    · exact .inr (.inl ⟨error, same, _, _, first, second, before, after, rfl, emitsLeft, emitsRight, merges,
        .inr ⟨left', right', rfl, rfl, throws⟩⟩)
    · refine .inr (.inr ⟨value, before ++ head, tail, (List.append_assoc ..).symm, ?_, goes⟩)
      exact ⟨_, _, first, second, before, head, rfl, emitsLeft, emitsRight, merges,
        .inr ⟨left', right', rfl, rfl, ends⟩⟩

/-- A sequence that returns has run each of its programs to the end. -/
theorem emits_bind_ok {program : Prog Op ε α} {next : α → Prog Op ε β} {trace : List (Performed Op)} {result : β}
    (emits : (program.bind next).Emits trace (some (.ok result))) :
    ∃ value head tail, trace = head ++ tail ∧ program.Emits head (some (.ok value)) ∧
      (next value).Emits tail (some (.ok result)) := by
  rcases emits_bind emits with ⟨same, -⟩ | ⟨error, same, -⟩ | goes
  · cases same
  · cases same
  · exact goes

theorem emits_attempt {program : Prog Op ε α} {trace : List (Performed Op)} {outcome : Except ε (Except ε α)}
    (emits : program.attempt.Emits trace (some outcome)) :
    ∃ returned, outcome = .ok returned ∧ program.Emits trace (some returned) := by
  induction program generalizing trace with
  | pure value =>
    obtain ⟨rfl, same | same⟩ := emits
    · cases same
    · exact ⟨.ok value, Option.some.inj same, rfl, .inr rfl⟩
  | throw error =>
    obtain ⟨rfl, same | same⟩ := emits
    · cases same
    · exact ⟨.error error, Option.some.inj same, rfl, .inr rfl⟩
  | call op next ih =>
    rcases emits with ⟨-, same⟩ | ⟨answer, rest, rfl, emits⟩
    · cases same
    obtain ⟨returned, same, emits⟩ := ih answer emits
    exact ⟨returned, same, .inr ⟨answer, rest, rfl, emits⟩⟩
  | rpc callee next _ ih =>
    rcases emits with ⟨-, same⟩ | ⟨returned, head, tail, rfl, returns, emits⟩ | ⟨error, emits⟩
    · cases same
    · obtain ⟨result, same, emits⟩ := ih returned emits
      exact ⟨result, same, .inr (.inl ⟨returned, head, tail, rfl, returns, emits⟩)⟩
    · obtain ⟨result, same, emits⟩ := ih (.error error) emits
      exact ⟨result, same, .inr (.inr ⟨error, emits⟩)⟩
  | fork left right next _ _ ih =>
    obtain ⟨one, two, first, second, head, tail, rfl, emitsLeft, emitsRight, merges, emits⟩ := emits
    rcases emits with ⟨-, same⟩ | ⟨left', right', rfl, rfl, emits⟩
    · cases same
    obtain ⟨result, same, emits⟩ := ih left' right' emits
    exact ⟨result, same, _, _, first, second, head, tail, rfl, emitsLeft, emitsRight, merges,
      .inr ⟨left', right', rfl, rfl, emits⟩⟩

theorem emits_pure {value : α} {trace : List (Performed Op)} {outcome : Except ε α}
    (emits : (Prog.pure value : Prog Op ε α).Emits trace (some outcome)) : trace = [] ∧ outcome = .ok value := by
  obtain ⟨rfl, same | same⟩ := emits
  · cases same
  · exact ⟨rfl, Option.some.inj same⟩

theorem emits_throw {error : ε} {trace : List (Performed Op)} {outcome : Except ε α}
    (emits : (Prog.throw error : Prog Op ε α).Emits trace (some outcome)) :
    trace = [] ∧ outcome = .error error := by
  obtain ⟨rfl, same | same⟩ := emits
  · cases same
  · exact ⟨rfl, Option.some.inj same⟩

theorem emits_ofExcept {value : Except ε α} {trace : List (Performed Op)} {outcome : Except ε α}
    (emits : (Prog.ofExcept value).Emits trace (some outcome)) : trace = [] ∧ outcome = value := by
  cases value <;> obtain ⟨rfl, same | same⟩ := emits <;> cases same <;> exact ⟨rfl, rfl⟩

theorem emits_perform {op : Op α} {trace : List (Performed Op)} {outcome : Except ε α}
    (emits : (Prog.perform op).Emits trace (some outcome)) :
    ∃ answer, trace = [⟨op, answer⟩] ∧ outcome = .ok answer := by
  rcases emits with ⟨-, same⟩ | ⟨answer, rest, rfl, rfl, same | same⟩
  · cases same
  · cases same
  · exact ⟨answer, rfl, Option.some.inj same⟩

/-- A call returns what its callee does, or fails with nothing heard of it. -/
theorem emits_remote {callee : Prog Op ε α} {trace : List (Performed Op)} {outcome : Except ε α}
    (emits : callee.remote.Emits trace (some outcome)) :
    callee.Emits trace (some outcome) ∨ trace = [] ∧ ∃ error, outcome = .error error := by
  rcases emits with ⟨-, same⟩ | ⟨returned, head, tail, rfl, returns, emits⟩ | ⟨error, emits⟩
  · cases same
  · obtain ⟨rfl, rfl⟩ := emits_ofExcept emits
    rw [List.append_nil]
    exact .inl returns
  · obtain ⟨rfl, rfl⟩ := emits_ofExcept emits
    exact .inr ⟨rfl, error, rfl⟩

/-- Every operation that the program may perform is of a kind. -/
def Only (kind : {β : Type} → Op β → Prop) : {α : Type} → Prog Op ε α → Prop
  | _, .pure _ => True
  | _, .throw _ => True
  | _, .call op next => kind op ∧ ∀ answer, Only kind (next answer)
  | _, .rpc callee next => Only kind callee ∧ ∀ returned, Only kind (next returned)
  | _, .fork left right next => Only kind left ∧ Only kind right ∧ ∀ one two, Only kind (next one two)

variable {kind : {β : Type} → Op β → Prop}

theorem Only.bind {program : Prog Op ε α} {next : α → Prog Op ε β} (first : program.Only @kind)
    (rest : ∀ value, (next value).Only @kind) : (program.bind next).Only @kind := by
  induction program with
  | pure value => exact rest value
  | throw error => trivial
  | call op _ ih => exact ⟨first.1, fun answer => ih answer (first.2 answer) rest⟩
  | rpc callee _ _ ih => exact ⟨first.1, fun returned => ih returned (first.2 returned) rest⟩
  | fork left right _ _ _ ih => exact ⟨first.1, first.2.1, fun one two => ih one two (first.2.2 one two) rest⟩

theorem Only.imp {other : {β : Type} → Op β → Prop} {program : Prog Op ε α} (only : program.Only @kind)
    (implies : ∀ {β : Type} {op : Op β}, kind op → other op) : program.Only @other := by
  induction program with
  | pure value => trivial
  | throw error => trivial
  | call op _ ih => exact ⟨implies only.1, fun answer => ih answer (only.2 answer)⟩
  | rpc callee _ ihCallee ih => exact ⟨ihCallee only.1, fun returned => ih returned (only.2 returned)⟩
  | fork left right _ ihLeft ihRight ih =>
    exact ⟨ihLeft only.1, ihRight only.2.1, fun one two => ih one two (only.2.2 one two)⟩

theorem Only.any {program : Prog Op ε α} : program.Only fun _ => True := by
  induction program with
  | pure value => trivial
  | throw error => trivial
  | call op _ ih => exact ⟨trivial, ih⟩
  | rpc callee _ ihCallee ih => exact ⟨ihCallee, ih⟩
  | fork left right _ ihLeft ihRight ih => exact ⟨ihLeft, ihRight, ih⟩

theorem Only.attempt {program : Prog Op ε α} (only : program.Only @kind) : program.attempt.Only @kind := by
  induction program with
  | pure value => trivial
  | throw error => trivial
  | call op _ ih => exact ⟨only.1, fun answer => ih answer (only.2 answer)⟩
  | rpc callee _ _ ih => exact ⟨only.1, fun returned => ih returned (only.2 returned)⟩
  | fork left right _ _ _ ih => exact ⟨only.1, only.2.1, fun one two => ih one two (only.2.2 one two)⟩

theorem Only.perform {op : Op α} (holds : kind op) : (Prog.perform op : Prog Op ε α).Only @kind :=
  ⟨holds, fun _ => trivial⟩

/-- Operations of a kind that are performed by programs of a kind. -/
theorem Only.handle {program : Prog Op ε α} {kind' : {β : Type} → Op' β → Prop}
    {perform : {β : Type} → Op β → Prog Op' ε β}
    (performs : ∀ {β : Type} (op : Op β), kind op → (perform op).Only @kind') (only : program.Only @kind) :
    (program.handle @perform).Only @kind' := by
  induction program with
  | pure value => trivial
  | throw error => trivial
  | call op _ ih => exact .bind (performs op only.1) fun answer => ih answer (only.2 answer)
  | rpc callee _ ihCallee ih => exact ⟨ihCallee only.1, fun returned => ih returned (only.2 returned)⟩
  | fork left right _ ihLeft ihRight ih =>
    exact ⟨ihLeft only.1, ihRight only.2.1, fun one two => ih one two (only.2.2 one two)⟩

theorem Only.ofExcept {value : Except ε α} : (Prog.ofExcept value : Prog Op ε α).Only @kind := by
  cases value <;> trivial

theorem Only.remote {callee : Prog Op ε α} (only : callee.Only @kind) : callee.remote.Only @kind :=
  ⟨only, fun _ => .ofExcept⟩

theorem Only.of_emits {program : Prog Op ε α} {trace : List (Performed Op)} {ended : Option (Except ε α)}
    (only : program.Only @kind) (emits : program.Emits trace ended) : ∀ performed ∈ trace, kind performed.op := by
  induction program generalizing trace with
  | pure value =>
    obtain ⟨rfl, -⟩ := emits
    nofun
  | throw error =>
    obtain ⟨rfl, -⟩ := emits
    nofun
  | call op next ih =>
    rcases emits with ⟨rfl, -⟩ | ⟨answer, rest, rfl, emits⟩
    · nofun
    intro performed member
    rcases List.mem_cons.mp member with rfl | later
    · exact only.1
    · exact ih answer (only.2 answer) emits performed later
  | rpc callee next ihCallee ih =>
    rcases emits with ⟨emits, -⟩ | ⟨returned, head, tail, rfl, returns, emits⟩ | ⟨error, emits⟩
    · exact ihCallee only.1 emits
    · intro performed member
      rcases List.mem_append.mp member with early | late
      · exact ihCallee only.1 returns performed early
      · exact ih returned (only.2 returned) emits performed late
    · exact ih (.error error) (only.2 _) emits
  | fork left right next ihLeft ihRight ih =>
    obtain ⟨one, two, first, second, head, tail, rfl, emitsLeft, emitsRight, merges, emits⟩ := emits
    intro performed member
    rcases List.mem_append.mp member with early | late
    · rcases merges.mem_iff.mp early with mine | yours
      · exact ihLeft only.1 emitsLeft performed mine
      · exact ihRight only.2.1 emitsRight performed yours
    · rcases emits with ⟨rfl, -⟩ | ⟨left', right', -, -, emits⟩
      · cases late
      · exact ih left' right' (only.2.2 _ _) emits performed late

end Prog

end Interleaving
