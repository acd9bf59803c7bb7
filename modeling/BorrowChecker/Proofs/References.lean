import BorrowChecker.Proofs.Analysis
import Mathlib

/-!
The references that an analysis keeps. In every state that comes up while a body is worked on, in
the middle of a block or of a join as well as at the start and the end of a block, the references to
a local are in strict order, and each of them was taken by the statement at its site, whose text
gives its holder and its target and whose target gives its kind (`references_canonical`).
-/

namespace BorrowChecker

namespace Ownership

open Mir

/-- The states that a point passes through when control comes to it in some state: that state; what
is left when dead references have ended; what the first of its events make of it; and, where a
reference is taken, the state in which its holder is emptied and the reference not yet recorded. -/
inductive Passes (b : Body) (live : Liveness) (p : Point) (s : State) : State → Prop
  | arrived : Passes b live p s s
  | events {earlier later : List Event} : b.events p = earlier ++ later →
      Passes b live p s (happenAll b p.location earlier (expire live p.location s)).state
  | emptied {target holder : LocalId} : .borrow target holder ∈ b.events p →
      Passes b live p s (reinit p.location holder (expire live p.location s))

/-- The states that come up while a body is worked on: the initial one; the ends of predecessors
joined one after the other; the same joined onto what was known; the starts and the ends of blocks;
and all that a block passes through when it is run from its start. -/
inductive Arises (b : Body) (live : Liveness) : State → Prop
  | initial : Arises b live (State.initial b)
  | joining {sol : Solution} {queue : List Nat} {i : Nat} {flows : List State} {s : State} :
      Works b live sol queue → flows <+: (b.preds i).filterMap sol.exit? →
      flows.foldl (fun acc s => some (joinOnto acc s))
        (if i = 0 then some (State.initial b) else none) = some s → Arises b live s
  | widened {sol : Solution} {queue : List Nat} {i : Nat} {old s : State} :
      Works b live sol queue → sol.entry? i = some old → inflow b sol i = some s →
      Arises b live (old.join s)
  | entry {sol : Solution} {queue : List Nat} {i : Nat} {s : State} :
      Works b live sol queue → sol.entry? i = some s → Arises b live s
  | exit {sol : Solution} {queue : List Nat} {i : Nat} {s : State} :
      Works b live sol queue → sol.exit? i = some s → Arises b live s
  | inside {sol : Solution} {queue : List Nat} {i k : Nat} {start s : State} :
      Works b live sol queue → sol.entry? i = some start → b.HasPoint ⟨i, k⟩ →
      Passes b live ⟨i, k⟩ (stateAt b live i start k) s → Arises b live s

section Propriety

variable {b : Body} {live : Liveness} {s : State}

theorem Proper.reinit (proper : Proper b s) (loc : Location) (dst : LocalId) :
    Proper b (reinit loc dst s) := by
  constructor
  · rw [length_reinit, proper.full]
  · intro x
    rw [slot_reinit]
    split
    · exact .nil
    · exact ordered_keepBorrows _ (proper.ordered x)
  · intro x br member
    rw [slot_reinit] at member
    split at member
    · simp at member
    · exact proper.sited x br (List.mem_filter.mp member).1

theorem Proper.passes {p : Point} {t : State} (proper : Proper b s)
    (passes : Passes b live p s t) : Proper b t := by
  cases passes with
  | arrived => exact proper
  | events spelled =>
      refine happenAll_induction (Proper b) ?_ (proper.expire live p.location)
      intro e happens t before
      exact before.happen (spelled ▸ List.mem_append_left _ happens)
  | emptied => exact (proper.expire live p.location).reinit _ _

theorem Arises.proper (present : 0 < b.blocks.length) (arises : Arises b live s) : Proper b s := by
  have feeds : ∀ {sol queue i t}, Works b live sol queue → Feeds b sol i t → Proper b t :=
    fun works => works.proper_feeds present
  cases arises with
  | initial => exact proper_initial b
  | joining works part joined =>
      refine foldl_join_induction (fun _ _ left right => left.join right) _ _ ?_ ?_ s joined
      · exact fun t start => feeds works (feeds_iff.mpr (.inl start))
      · exact fun t member => feeds works (feeds_iff.mpr (.inr (part.subset member)))
  | widened works known flows =>
      exact (works.proper present known).join
        (inflow_induction (fun _ _ left right => left.join right) (fun _ => feeds works) flows)
  | entry works known => exact works.proper present known
  | exit works ended =>
      rw [works.exit?_eq present, Option.map_eq_some_iff] at ended
      obtain ⟨start, known, rfl⟩ := ended
      exact (works.proper present known).transfer _
  | inside works known _ passes => exact ((works.proper present known).stateAt _ _).passes passes

theorem Proper.kind_iff {x : LocalId} {br : Borrow} (proper : Proper b s)
    (member : br ∈ (s.slot x).borrows) : br.kind = .exclusive ↔ b.Mutable x := by
  obtain ⟨_, _, _, kind⟩ := proper.sited x br member
  rw [kind, mutable_iff]

/-- A site tells its reference: a statement takes one reference, and that fixes all the rest. -/
theorem Proper.eq_of_site {x : LocalId} {br other : Borrow} (proper : Proper b s)
    (member : br ∈ (s.slot x).borrows) (second : other ∈ (s.slot x).borrows)
    (same : br.site = other.site) : br = other := by
  obtain ⟨p, here, taken, kind⟩ := proper.sited x br member
  obtain ⟨q, there, takenToo, kindToo⟩ := proper.sited x other second
  obtain rfl : p = q := Point.location_inj (by rw [here, there, same])
  have holder : br.holder = other.holder := by
    rw [Body.events_of_borrow taken, List.mem_singleton] at takenToo
    exact (Event.borrow.inj takenToo).2.symm
  obtain ⟨_, _, _⟩ := br
  obtain ⟨_, _, _⟩ := other
  simp_all

theorem Proper.sites_nodup (proper : Proper b s) (x : LocalId) :
    ((s.slot x).borrows.map Borrow.site).Nodup :=
  List.Nodup.map_on (fun _ first _ second same => proper.eq_of_site first second same)
    (proper.ordered x).nodup

end Propriety

/-- In every state that comes up in the analysis of a valid body, the references to a local are
strictly ascending; each was taken by the statement at its site, which assigns a reference to the
local to its holder, and is exclusive exactly if the local is mutable; so there is at most one for
each site, and they are all of one kind. -/
theorem references_canonical {b : Body} (valid : b.isValid) {live : Liveness} {s : State}
    (arises : Arises b live s) (x : LocalId) :
    ((s.slot x).borrows.Pairwise fun br later => br.before later) ∧
      (∀ br ∈ (s.slot x).borrows,
        (∃ (i k : Nat) (block : Block), br.site = ⟨i, k⟩ ∧ b.blocks[i]? = some block ∧
          block.statements[k]? = some (.assign br.holder (.ref x))) ∧
        (br.kind = .exclusive ↔ b.Mutable x)) ∧
      ((s.slot x).borrows.map Borrow.site).Nodup ∧
      ∀ br ∈ (s.slot x).borrows, ∀ other ∈ (s.slot x).borrows, br.kind = other.kind := by
  have proper := arises.proper (Body.blocks_pos valid)
  refine ⟨proper.ordered x, ?_, proper.sites_nodup x, ?_⟩
  · intro br member
    obtain ⟨p, here, taken, _⟩ := proper.sited x br member
    obtain ⟨block, found, stands⟩ := Body.statement_of_borrow taken
    exact ⟨⟨p.block, p.index, block, here.symm, found, stands⟩, proper.kind_iff member⟩
  · intro br member other second
    obtain ⟨_, _, _, kind⟩ := proper.sited x br member
    obtain ⟨_, _, _, kindToo⟩ := proper.sited x other second
    rw [kind, kindToo]

/-- A loop whose two arms lend one local to different holders, and in which a mutable local is lent. -/
def crossed : Body where
  params := [.scalar .bool, .structNamed []]
  locals := [{ type := .unit }, { type := .scalar .bool }, { type := .structNamed [] },
    { type := .structNamed [], isMut := true }, { type := .refTo (.structNamed []) false },
    { type := .refTo (.structNamed []) false }, { type := .refTo (.structNamed []) true }]
  blocks := [
    { statements := [.assign 4 (.ref 2)], term := .switchInt (.copy 1) [⟨0, 1⟩] 2 },
    { statements := [.assign 5 (.ref 2)], term := .goto 2 },
    { statements := [.assign 6 (.ref 3)], term := .switchInt (.copy 1) [⟨0, 0⟩] 3 },
    { term := .ret }]

/-- Where the loop is left, the references of both arms are in use. -/
def crossedEnd : State :=
  [{ tag := .uninitialized }, {},
    { borrows := [⟨.shared, ⟨0, 0⟩, 4⟩, ⟨.shared, ⟨1, 0⟩, 5⟩] },
    { tag := .uninitialized, borrows := [⟨.exclusive, ⟨2, 0⟩, 6⟩] },
    { since := ⟨0, 0⟩ }, { tag := .uninitialized }, { since := ⟨2, 0⟩ }]

theorem crossed_canonical :
    crossed.isValid ∧ Arises crossed (.ofBody crossed) crossedEnd ∧
      ((crossedEnd.slot 2).borrows.map Borrow.site).Nodup ∧
      (∀ br ∈ (crossedEnd.slot 2).borrows, ∀ other ∈ (crossedEnd.slot 2).borrows,
        br.kind = other.kind) ∧
      crossed.Mutable 3 := by
  have valid : crossed.isValid := by decide
  have known : Solution.entry? (solve crossed (.ofBody crossed)) 3 = some crossedEnd := by cbv
  have arises : Arises crossed (.ofBody crossed) crossedEnd :=
    .entry (solve_works _ (Body.blocks_pos valid)) known
  obtain ⟨_, _, sites, kinds⟩ := references_canonical valid arises 2
  obtain ⟨_, sited, _, _⟩ := references_canonical valid arises 3
  exact ⟨valid, arises, sites, kinds, (sited ⟨.exclusive, ⟨2, 0⟩, 6⟩ (by decide)).2.mp rfl⟩

end Ownership

end BorrowChecker
