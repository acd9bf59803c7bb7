import BorrowChecker.Proofs.Verdict
import Mathlib

/-!
The order of the cases of a switch. It decides in which order the analysis visits blocks, and so
where a fault is reported and what it is called, but not which locals are at fault.
-/

namespace BorrowChecker

namespace Mir

/-- The same terminator, up to the order of the cases of a switch. -/
inductive Terminator.Recased : Terminator → Terminator → Prop
  | same {t : Terminator} : Recased t t
  | switch {discr : Operand} {cases cases' : List SwitchCase} {otherwise : BlockId} :
      cases.Perm cases' →
      Recased (.switchInt discr cases otherwise) (.switchInt discr cases' otherwise)

namespace Terminator.Recased

theorem symm {t u : Terminator} (recased : t.Recased u) : u.Recased t := by
  cases recased with
  | same => exact .same
  | switch permuted => exact .switch permuted.symm

theorem successors {t u : Terminator} (recased : t.Recased u) :
    t.successors.Perm u.successors := by
  cases recased with
  | same => exact .refl _
  | switch permuted => exact (permuted.map _).append_right _

theorem events {t u : Terminator} (recased : t.Recased u) : t.events = u.events := by
  cases recased <;> rfl

theorem access {t u : Terminator} (recased : t.Recased u) : t.access = u.access := by
  cases recased <;> rfl

end Terminator.Recased

structure Block.Recased (block other : Block) : Prop where
  name : block.name = other.name
  statements : block.statements = other.statements
  term : block.term.Recased other.term

namespace Block.Recased

theorem symm {block other : Block} (recased : block.Recased other) : other.Recased block where
  name := recased.name.symm
  statements := recased.statements.symm
  term := recased.term.symm

theorem eventsAt {block other : Block} (recased : block.Recased other) (index : Nat) :
    block.eventsAt index = other.eventsAt index := by
  simp only [Block.eventsAt, recased.statements, recased.term.events]

theorem accesses {block other : Block} (recased : block.Recased other) :
    block.accesses = other.accesses := by
  simp only [Block.accesses, recased.statements, recased.term.access]

end Block.Recased

structure Body.Recased (b c : Body) : Prop where
  name : b.name = c.name
  params : b.params = c.params
  result : b.result = c.result
  locals : b.locals = c.locals
  blocks : List.Forall₂ Block.Recased b.blocks c.blocks
  lifetimeParams : b.lifetimeParams = c.lifetimeParams
  lifetimeBounds : b.lifetimeBounds = c.lifetimeBounds

theorem LocalSet.eq_of_has {s t : LocalSet} (same : ∀ x, s.has x ↔ t.has x) : s = t := by
  obtain ⟨members, ascending⟩ := s
  obtain ⟨members', ascending'⟩ := t
  have equal : members = members' :=
    ascending.eq_of_mem_iff ascending' fun x => by simpa [has] using same x
  subst equal
  rfl

namespace Body.Recased

variable {b c : Body} (recased : b.Recased c)
include recased

theorem symm : c.Recased b where
  name := recased.name.symm
  params := recased.params.symm
  result := recased.result.symm
  locals := recased.locals.symm
  blocks := recased.blocks.flip.imp fun _ _ => Block.Recased.symm
  lifetimeParams := recased.lifetimeParams.symm
  lifetimeBounds := recased.lifetimeBounds.symm

theorem length : b.blocks.length = c.blocks.length := recased.blocks.length_eq

theorem found {i : Nat} {block : Block} (found : b.blocks[i]? = some block) :
    ∃ other, c.blocks[i]? = some other ∧ block.Recased other := by
  obtain ⟨inside, rfl⟩ := List.getElem?_eq_some_iff.mp found
  have inside' : i < c.blocks.length := recased.length ▸ inside
  exact ⟨_, List.getElem?_eq_getElem inside', recased.blocks.get inside inside'⟩

theorem missing {i : Nat} (missing : b.blocks[i]? = none) : c.blocks[i]? = none := by
  rw [List.getElem?_eq_none_iff] at missing ⊢
  rwa [← recased.length]

theorem events (p : Point) : b.events p = c.events p := by
  unfold Body.events
  cases found : b.blocks[p.block]? with
  | none => rw [recased.missing found]
  | some block =>
      obtain ⟨other, found', same⟩ := recased.found found
      rw [found']
      exact same.eventsAt p.index

theorem accesses (i : Nat) : b.accesses i = c.accesses i := by
  unfold Body.accesses
  cases found : b.blocks[i]? with
  | none => rw [recased.missing found]
  | some block =>
      obtain ⟨other, found', same⟩ := recased.found found
      rw [found']
      exact same.accesses

theorem next {p q : Point} (next : b.Next p q) : c.Next p q := by
  cases next with
  | statement found within =>
      obtain ⟨other, found', same⟩ := recased.found found
      exact .statement found' (same.statements ▸ within)
  | jump found goes =>
      obtain ⟨other, found', same⟩ := recased.found found
      rw [same.statements]
      exact .jump found' (same.term.successors.mem_iff.mp goes)

theorem succs {i j : Nat} (follows : j ∈ b.succs i) : j ∈ c.succs i := by
  obtain ⟨block, found, goes, inside⟩ := mem_succs.mp follows
  obtain ⟨other, found', same⟩ := recased.found found
  exact mem_succs.mpr
    ⟨other, found', same.term.successors.mem_iff.mp goes, recased.length ▸ inside⟩

theorem mem_succs_iff {i j : Nat} : j ∈ b.succs i ↔ j ∈ c.succs i :=
  ⟨recased.succs, recased.symm.succs⟩

theorem preds (j : Nat) : b.preds j = c.preds j := by
  rw [preds_eq_filter, preds_eq_filter, recased.length]
  refine List.filter_congr fun i _ => ?_
  rw [Bool.eq_iff_iff, List.contains_iff_mem, List.contains_iff_mem]
  exact recased.mem_succs_iff

theorem readsAnywhere {x : LocalId} (reads : b.ReadsAnywhere x) : c.ReadsAnywhere x := by
  rw [← has_readLocals, readLocals, LocalSet.has_ofList, List.mem_flatMap] at reads ⊢
  obtain ⟨block, member, reads⟩ := reads
  obtain ⟨i, found⟩ := List.mem_iff_getElem?.mp member
  obtain ⟨other, found', same⟩ := recased.found found
  exact ⟨other, List.mem_of_getElem? found', same.accesses ▸ reads⟩

theorem readLocals : b.readLocals = c.readLocals := by
  refine LocalSet.eq_of_has fun x => ?_
  rw [has_readLocals, has_readLocals]
  exact ⟨recased.readsAnywhere, recased.symm.readsAnywhere⟩

theorem liveAfter (atStart : List LocalSet) (i : Nat) :
    b.liveAfter atStart i = c.liveAfter atStart i := by
  refine LocalSet.eq_of_has fun x => ?_
  simp only [has_liveAfter, recased.mem_succs_iff]

theorem liveBlocks (x : LocalId) : b.liveBlocks x = c.liveBlocks x := by
  simp only [Body.liveBlocks, recased.length, recased.accesses, recased.preds]

theorem liveness : Liveness.ofBody b = Liveness.ofBody c := by
  have after := recased.liveAfter
  unfold Body.liveAfter at after
  simp only [Liveness.ofBody, recased.readLocals, recased.liveBlocks, recased.length,
    recased.accesses, after]

theorem alike : b.Alike c where
  locals := recased.locals
  events := recased.events
  next _ _ := ⟨recased.next, recased.symm.next⟩
  needs p x := by
    unfold Needs
    rw [recased.liveness, ← has_readLocals, ← has_readLocals, recased.readLocals]

end Body.Recased

end Mir

namespace Ownership

open Mir

theorem lifetimeViolations_of_recased {b c : Body} (recased : b.Recased c) :
    lifetimeViolations b = lifetimeViolations c := by
  simp only [lifetimeViolations, elidedBounds, inputLifetimes, isDeclared, recased.params,
    recased.result, recased.lifetimeParams, recased.lifetimeBounds]

/-- A short way and a long one meet. On the long one references to two locals are taken and a third
local is dropped; where they meet, each of the three is used. -/
def crossing (cases : List SwitchCase) : Body where
  params := [.scalar .i64, .structNamed [], .structNamed [], .structNamed []]
  locals := [{ type := .unit }, { type := .scalar .i64 }, { type := .structNamed [] },
    { type := .structNamed [], isMut := true }, { type := .structNamed [] },
    { type := .refTo (.structNamed []) false }, { type := .refTo (.structNamed []) false },
    { type := .refTo (.structNamed []) false }, { type := .refTo (.structNamed []) false },
    { type := .structNamed [] }]
  blocks := [
    { term := .switchInt (.copy 1) cases 1 },
    { term := .goto 4 },
    { term := .goto 3 },
    { statements := [.assign 5 (.ref 2), .assign 6 (.ref 3), .drop 4], term := .goto 4 },
    { statements := [.assign 9 (.use (.move 2)), .assign 7 (.ref 3), .assign 9 (.use (.move 4))]
      term := .goto 5 },
    { statements := [.assign 9 (.use (.move 2)), .assign 6 (.use (.copy 5)), .assign 8 (.ref 3),
        .assign 9 (.use (.copy 4))]
      term := .ret }]

/-- The case of the short way first. -/
def ways : List SwitchCase := [⟨0, 1⟩, ⟨1, 2⟩]

theorem crossing_recased : (crossing ways).Recased (crossing ways.reverse) where
  name := rfl
  params := rfl
  result := rfl
  locals := rfl
  blocks := .cons ⟨rfl, rfl, .switch ways.reverse_perm.symm⟩
    (List.forall₂_same.mpr fun _ _ => ⟨rfl, rfl, .same⟩)
  lifetimeParams := rfl
  lifetimeBounds := rfl

theorem check_crossing : check (crossing ways) = [
    .located .moveWhileBorrowed 2 ⟨3, 0⟩ ⟨4, 0⟩, .located .mutableBorrowConflict 3 ⟨3, 1⟩ ⟨4, 1⟩,
    .located .useAfterFree 4 ⟨3, 2⟩ ⟨4, 2⟩, .located .useAfterMove 2 ⟨4, 0⟩ ⟨5, 0⟩,
    .located .mutableBorrowConflict 3 ⟨4, 1⟩ ⟨5, 2⟩, .located .useAfterMove 4 ⟨4, 2⟩ ⟨5, 3⟩] := by
  cbv

theorem check_crossing_reverse : check (crossing ways.reverse) = [
    .located .moveWhileBorrowed 2 ⟨3, 0⟩ ⟨4, 0⟩, .located .mutableBorrowConflict 3 ⟨3, 1⟩ ⟨4, 1⟩,
    .located .useAfterFree 4 ⟨3, 2⟩ ⟨4, 2⟩, .located .moveWhileBorrowed 2 ⟨3, 0⟩ ⟨5, 0⟩,
    .located .useAfterFree 4 ⟨3, 2⟩ ⟨5, 3⟩] := by
  cbv

/-- The order of the cases decides what is reported with each of the three locals. -/
theorem crossing_reports_differ :
    (crossing ways).isValid ∧ (crossing ways.reverse).isValid ∧
      (crossing ways).Recased (crossing ways.reverse) ∧
      Reports (crossing ways) .useAfterMove 2 ⟨5, 0⟩ ∧
      ¬ Reports (crossing ways.reverse) .useAfterMove 2 ⟨5, 0⟩ ∧
      ¬ Reports (crossing ways) .moveWhileBorrowed 2 ⟨5, 0⟩ ∧
      Reports (crossing ways.reverse) .moveWhileBorrowed 2 ⟨5, 0⟩ ∧
      Reports (crossing ways) .mutableBorrowConflict 3 ⟨5, 2⟩ ∧
      ¬ Reports (crossing ways.reverse) .mutableBorrowConflict 3 ⟨5, 2⟩ ∧
      Reports (crossing ways) .useAfterMove 4 ⟨5, 3⟩ ∧
      ¬ Reports (crossing ways.reverse) .useAfterMove 4 ⟨5, 3⟩ := by
  refine ⟨by decide, by decide, crossing_recased, ?_⟩
  unfold Reports
  rw [check_crossing, check_crossing_reverse]
  decide

/-- Two bodies that differ only in the order of the cases of their switches are at fault with the
same locals, and with the same lifetimes. If no move out of a local is refused in either, its value
is used after it was moved or dropped at the same places; and if moves of the local cannot be
mistaken for drops of it either, then all that is reported of it is the same, up to conflicts of
references. -/
theorem verdict_of_recased {b c : Body} (valid : b.isValid) (other : c.isValid)
    (recased : b.Recased c) :
    (∀ x, Quiet b x ↔ Quiet c x) ∧
      (∀ v : Violation, v.kind = .undeclaredLifetime → (v ∈ check b ↔ v ∈ check c)) ∧
      ∀ x, MovesFreely b x → MovesFreely c x →
        (∀ loc, Reports b .useAfterMove x loc ∨ Reports b .useAfterFree x loc ↔
          Reports c .useAfterMove x loc ∨ Reports c .useAfterFree x loc) ∧
        (Apart b c x → ∀ kind, kind ≠ .mutableBorrowConflict →
          ∀ loc, Reports b kind x loc ↔ Reports c kind x loc) := by
  have alike := recased.alike
  have lifetimes : ∀ v : Violation, v.kind = .undeclaredLifetime → (v ∈ check b ↔ v ∈ check c) := by
    intro v lifetime
    rw [mem_check_iff_lifetime valid lifetime, mem_check_iff_lifetime other lifetime,
      lifetimeViolations_of_recased recased]
  refine ⟨fun x => ⟨.of_alike alike valid other, .of_alike alike.symm other valid⟩, lifetimes, ?_⟩
  intro x free free'
  refine ⟨fun loc => ⟨reports_use_of_alike alike valid other free',
    reports_use_of_alike alike.symm other valid free⟩, ?_⟩
  intro apart kind unshared loc
  by_cases lifetime : kind = .undeclaredLifetime
  · subst lifetime
    exact exists_congr fun v => and_congr_left fun named => lifetimes v named.1
  · exact ⟨.of_alike alike valid other free free' apart lifetime unshared,
      .of_alike alike.symm other valid free' free (apart.symm alike) lifetime unshared⟩

/-- The third local is at fault at the same places, if not always by the same name. -/
theorem crossing_verdict :
    (crossing ways).isValid ∧ (crossing ways.reverse).isValid ∧
      (crossing ways).Recased (crossing ways.reverse) ∧
      (∀ x, Quiet (crossing ways) x ↔ Quiet (crossing ways.reverse) x) ∧
      MovesFreely (crossing ways) 4 ∧ MovesFreely (crossing ways.reverse) 4 ∧
      ∀ loc, Reports (crossing ways) .useAfterMove 4 loc ∨
          Reports (crossing ways) .useAfterFree 4 loc ↔
        Reports (crossing ways.reverse) .useAfterMove 4 loc ∨
          Reports (crossing ways.reverse) .useAfterFree 4 loc := by
  have valid : (crossing ways).isValid := by decide
  have other : (crossing ways.reverse).isValid := by decide
  have free : MovesFreely (crossing ways) 4 := by
    rw [movesFreely_iff, check_crossing]
    decide
  have free' : MovesFreely (crossing ways.reverse) 4 := by
    rw [movesFreely_iff, check_crossing_reverse]
    decide
  obtain ⟨quiet, _, reports⟩ := verdict_of_recased valid other crossing_recased
  exact ⟨valid, other, crossing_recased, quiet, free, free', (reports 4 free free').1⟩

end Ownership

end BorrowChecker
