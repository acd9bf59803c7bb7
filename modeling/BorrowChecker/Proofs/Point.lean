import BorrowChecker.Mir.Flaw
import BorrowChecker.Mir.Flow

/-!
Program points, the events that happen at each of them, and the paths that control takes from one
point to another. This is the vocabulary in which the checker is judged: it mentions no state of
the analysis.
-/

namespace BorrowChecker

namespace Mir

/-- A statement of a block, or its terminator, which has the number after the last statement. -/
structure Point where
  block : Nat
  index : Nat
deriving DecidableEq, Repr

namespace Point

def entry : Point := ⟨0, 0⟩

def location (p : Point) : Location := ⟨p.block, p.index⟩

theorem location_inj {p q : Point} (same : p.location = q.location) : p = q := by
  obtain ⟨block, index⟩ := p
  obtain ⟨otherBlock, otherIndex⟩ := q
  simp only [location, Location.mk.injEq, BlockId, Int.natCast_inj] at same
  rw [same.1, same.2]

end Point

inductive Event where
  | read (id : LocalId)
  | move (id : LocalId)
  /-- A reference to a target is taken and becomes the value of its holder. -/
  | borrow (target holder : LocalId)
  | assign (dst : LocalId)
  | drop (id : LocalId)
deriving DecidableEq, Repr

namespace Event

def uses : Event → LocalId → Bool
  | read id, x => id = x
  | move id, x => id = x
  | borrow target _, x => target = x
  | assign _, _ => false
  | drop _, _ => false

def assigns : Event → LocalId → Bool
  | assign dst, x => dst = x
  | borrow _ holder, x => holder = x
  | read _, _ => false
  | move _, _ => false
  | drop _, _ => false

def fetches : Event → Bool
  | read _ => true
  | move _ => true
  | borrow .. => false
  | assign _ => false
  | drop _ => false

def changes (e : Event) (x : LocalId) : Bool := e = move x || e = drop x || e.assigns x

/-- The last of some events that assigns, moves or drops a local. -/
def latest? (x : LocalId) (events : List Event) : Option Event :=
  (events.filter fun e => e.changes x).getLast?

theorem latest?_concat (x : LocalId) (events : List Event) (e : Event) :
    latest? x (events ++ [e]) = if e.changes x then some e else latest? x events := by
  unfold latest?
  rw [List.filter_append]
  by_cases changed : e.changes x
  · simp [changed]
  · simp [changed]

/-- The last thing that happened to a local took its value away. -/
def Released (x : LocalId) (events : List Event) : Prop :=
  latest? x events = some (move x) ∨ latest? x events = some (drop x)

instance (x : LocalId) (events : List Event) : Decidable (Released x events) :=
  inferInstanceAs (Decidable (_ ∨ _))

theorem released_concat {x : LocalId} {events : List Event} {e : Event} (kept : e.assigns x = false)
    (released : e = move x ∨ e = drop x ∨ Released x events) : Released x (events ++ [e]) := by
  unfold Released at released ⊢
  rw [latest?_concat]
  by_cases changed : e.changes x
  · have taken : e = move x ∨ e = drop x := by simpa [changes, kept] using changed
    simpa [changed] using taken
  · have other : e ≠ move x ∧ e ≠ drop x := by simpa [changes, kept] using changed
    simpa [changed, other] using released

def MovedSince (x : LocalId) (events : List Event) : Prop :=
  ∃ earlier later, events = earlier ++ move x :: later ∧ ∀ e ∈ later, e.assigns x = false

end Event

namespace Operand

def events : Operand → List Event
  | copy id => [.read id]
  | move id => [.move id]
  | const _ => []
  | unknown _ => []

theorem fetches_of_events {op : Operand} {e : Event} (happens : e ∈ op.events) : e.fetches := by
  cases op <;> simp_all [events, Event.fetches]

theorem fetches_of_flatMap {ops : List Operand} {e : Event}
    (happens : e ∈ ops.flatMap events) : e.fetches := by
  obtain ⟨op, _, here⟩ := List.mem_flatMap.mp happens
  exact fetches_of_events here

end Operand

namespace RValue

def events (dst : LocalId) : RValue → List Event
  | use value => value.events ++ [.assign dst]
  | ref target => [.borrow target dst]
  | binary _ left right => left.events ++ right.events ++ [.assign dst]
  | unary _ value => value.events ++ [.assign dst]
  | aggregate _ elems => elems.flatMap Operand.events ++ [.assign dst]
  | cast value _ => value.events ++ [.assign dst]
  | len id => [.read id, .assign dst]
  | discriminant id => [.read id, .assign dst]
  | unknown => [.assign dst]

theorem assigns_dst (src : RValue) (dst : LocalId) : ∃ e ∈ src.events dst, e.assigns dst := by
  cases src with
  | ref target => exact ⟨.borrow target dst, by simp [events], by simp [Event.assigns]⟩
  | use | binary | unary | aggregate | cast | len | discriminant | unknown =>
      exact ⟨.assign dst, by simp [events], by simp [Event.assigns]⟩

theorem events_cases {dst : LocalId} {src : RValue} {e : Event} (happens : e ∈ src.events dst) :
    e.fetches ∨ e = .assign dst ∨ ∃ target, src = .ref target ∧ e = .borrow target dst := by
  cases src with
  | ref target => exact .inr (.inr ⟨target, rfl, List.mem_singleton.mp happens⟩)
  | unknown => exact .inr (.inl (List.mem_singleton.mp happens))
  | len id | discriminant id =>
      rcases List.mem_cons.mp happens with rfl | stored
      · exact .inl rfl
      · exact .inr (.inl (List.mem_singleton.mp stored))
  | binary op left right =>
      rcases List.mem_append.mp happens with fetched | stored
      · rcases List.mem_append.mp fetched with here | here
        · exact .inl (Operand.fetches_of_events here)
        · exact .inl (Operand.fetches_of_events here)
      · exact .inr (.inl (List.mem_singleton.mp stored))
  | aggregate head elems =>
      rcases List.mem_append.mp happens with fetched | stored
      · exact .inl (Operand.fetches_of_flatMap fetched)
      · exact .inr (.inl (List.mem_singleton.mp stored))
  | use value | unary op value | cast value target =>
      rcases List.mem_append.mp happens with fetched | stored
      · exact .inl (Operand.fetches_of_events fetched)
      · exact .inr (.inl (List.mem_singleton.mp stored))

theorem fetches_of_dropLast {dst : LocalId} {src : RValue} {e : Event}
    (happens : e ∈ (src.events dst).dropLast) : e.fetches := by
  cases src with
  | ref target => simp [events] at happens
  | unknown => simp [events] at happens
  | len id => simp_all [events, Event.fetches]
  | discriminant id => simp_all [events, Event.fetches]
  | aggregate head elems =>
      rw [events, List.dropLast_concat] at happens
      exact Operand.fetches_of_flatMap happens
  | binary op left right =>
      rw [events, List.dropLast_concat] at happens
      rcases List.mem_append.mp happens with here | here
      · exact Operand.fetches_of_events here
      · exact Operand.fetches_of_events here
  | use value | unary op value | cast value target =>
      rw [events, List.dropLast_concat] at happens
      exact Operand.fetches_of_events happens

end RValue

namespace Statement

def events : Statement → List Event
  | assign dst src => src.events dst
  | drop id => [.drop id]
  | nop => []
  | unknown => []

theorem fetches_of_dropLast {s : Statement} {e : Event} (happens : e ∈ s.events.dropLast) :
    e.fetches := by
  cases s with
  | assign dst src => exact RValue.fetches_of_dropLast happens
  | drop id => simp [events] at happens
  | nop => simp [events] at happens
  | unknown => simp [events] at happens

end Statement

namespace Terminator

def events : Terminator → List Event
  | switchInt discr _ _ => discr.events
  | call _ args dst _ => args.flatMap Operand.events ++ dst.toList.map .assign
  | assert cond _ _ _ => cond.events
  | ret => [.read LocalId.ret]
  | missing | goto _ | unreachable | unknown => []

theorem events_cases {t : Terminator} {e : Event} (happens : e ∈ t.events) :
    e.fetches ∨ ∃ dst, e = .assign dst := by
  cases t with
  | switchInt discr cases otherwise => exact .inl (Operand.fetches_of_events happens)
  | assert cond expected msg target => exact .inl (Operand.fetches_of_events happens)
  | ret => exact .inl (List.mem_singleton.mp happens ▸ rfl)
  | call func args dst target =>
      rcases List.mem_append.mp happens with fetched | stored
      · exact .inl (Operand.fetches_of_flatMap fetched)
      · obtain ⟨id, _, same⟩ := List.mem_map.mp stored
        exact .inr ⟨id, same.symm⟩
  | missing | goto target | unreachable | unknown => simp [events] at happens

theorem fetches_of_dropLast {t : Terminator} {e : Event} (happens : e ∈ t.events.dropLast) :
    e.fetches := by
  cases t with
  | switchInt discr cases otherwise =>
      exact Operand.fetches_of_events (List.dropLast_subset _ happens)
  | assert cond expected msg target =>
      exact Operand.fetches_of_events (List.dropLast_subset _ happens)
  | call func args dst target =>
      cases dst with
      | none =>
          have fetched := List.dropLast_subset _ happens
          simp only [events, Option.toList_none, List.map_nil, List.append_nil] at fetched
          exact Operand.fetches_of_flatMap fetched
      | some id =>
          simp only [events, Option.toList_some, List.map_cons, List.map_nil,
            List.dropLast_concat] at happens
          exact Operand.fetches_of_flatMap happens
  | ret | missing | goto target | unreachable | unknown => simp [events] at happens

end Terminator

namespace Block

def eventsAt (block : Block) (index : Nat) : List Event :=
  match block.statements[index]? with
  | some s => s.events
  | none => if index = block.statements.length then block.term.events else []

end Block

namespace Body

def events (b : Body) (p : Point) : List Event :=
  match b.blocks[p.block]? with
  | some block => block.eventsAt p.index
  | none => []

theorem events_of_statement {b : Body} {i k : Nat} {block : Block} {st : Statement}
    (found : b.blocks[i]? = some block) (stands : block.statements[k]? = some st) :
    b.events ⟨i, k⟩ = st.events := by
  simp [events, found, Block.eventsAt, stands]

theorem events_of_terminator {b : Body} {i : Nat} {block : Block}
    (found : b.blocks[i]? = some block) :
    b.events ⟨i, block.statements.length⟩ = block.term.events := by
  simp [events, found, Block.eventsAt]

theorem events_cases {b : Body} {p : Point} {e : Event} (happens : e ∈ b.events p) :
    ∃ block, b.blocks[p.block]? = some block ∧
      ((∃ st, block.statements[p.index]? = some st ∧ e ∈ st.events) ∨
        p.index = block.statements.length ∧ e ∈ block.term.events) := by
  unfold events at happens
  split at happens
  · rename_i block found
    refine ⟨block, found, ?_⟩
    unfold Block.eventsAt at happens
    split at happens
    · rename_i st stands
      exact .inl ⟨st, stands, happens⟩
    · split at happens
      · rename_i atEnd
        exact .inr ⟨atEnd, happens⟩
      · simp at happens
  · simp at happens

theorem statement_of_borrow {b : Body} {p : Point} {x holder : LocalId}
    (happens : .borrow x holder ∈ b.events p) :
    ∃ block, b.blocks[p.block]? = some block ∧
      block.statements[p.index]? = some (.assign holder (.ref x)) := by
  obtain ⟨block, found, ⟨st, stands, happens⟩ | ⟨_, happens⟩⟩ := events_cases happens
  · refine ⟨block, found, ?_⟩
    rw [stands]
    cases st with
    | assign dst src =>
        obtain fetched | stored | ⟨target, rfl, taken⟩ := RValue.events_cases happens
        · simp [Event.fetches] at fetched
        · simp at stored
        · obtain ⟨rfl, rfl⟩ := Event.borrow.inj taken
          rfl
    | drop id => simp [Statement.events] at happens
    | nop => simp [Statement.events] at happens
    | unknown => simp [Statement.events] at happens
  · obtain fetched | ⟨_, stored⟩ := Terminator.events_cases happens
    · simp [Event.fetches] at fetched
    · simp at stored

theorem events_of_borrow {b : Body} {p : Point} {x holder : LocalId}
    (happens : .borrow x holder ∈ b.events p) : b.events p = [.borrow x holder] := by
  obtain ⟨block, found, stands⟩ := statement_of_borrow happens
  exact events_of_statement found stands

theorem events_of_drop {b : Body} {p : Point} {x : LocalId} (happens : .drop x ∈ b.events p) :
    b.events p = [.drop x] := by
  obtain ⟨block, found, ⟨st, stands, happens⟩ | ⟨_, happens⟩⟩ := events_cases happens
  · cases st with
    | drop id =>
        obtain rfl : x = id := by simpa [Statement.events] using happens
        exact events_of_statement found stands
    | assign dst src =>
        obtain fetched | stored | ⟨_, _, taken⟩ := RValue.events_cases happens
        · simp [Event.fetches] at fetched
        · simp at stored
        · simp at taken
    | nop => simp [Statement.events] at happens
    | unknown => simp [Statement.events] at happens
  · obtain fetched | ⟨_, stored⟩ := Terminator.events_cases happens
    · simp [Event.fetches] at fetched
    · simp at stored

/-- Only the last event of a point is anything but the fetch of an operand. -/
theorem fetches_of_earlier {b : Body} {p : Point} {earlier later : List Event} {e : Event}
    (happens : b.events p = earlier ++ e :: later) : ∀ f ∈ earlier, f.fetches := by
  suffices all : ∀ f ∈ (b.events p).dropLast, f.fetches by
    intro f before
    refine all f ?_
    rw [happens, List.dropLast_append_cons]
    exact List.mem_append_left _ before
  intro f member
  unfold events at member
  split at member
  · unfold Block.eventsAt at member
    split at member
    · exact Statement.fetches_of_dropLast member
    · split at member
      · exact Terminator.fetches_of_dropLast member
      · simp at member
  · simp at member

def trace (b : Body) (points : List Point) : List Event := points.flatMap b.events

theorem trace_concat (b : Body) (points : List Point) (p : Point) :
    b.trace (points ++ [p]) = b.trace points ++ b.events p := by
  simp [trace]

def Assigns (b : Body) (p : Point) (x : LocalId) : Prop := ∃ e ∈ b.events p, e.assigns x

def Uses (b : Body) (p : Point) (x : LocalId) : Prop := ∃ e ∈ b.events p, e.uses x

theorem assigns_eq_false {b : Body} {p : Point} {x : LocalId} (kept : ¬ b.Assigns p x) {e : Event}
    (happens : e ∈ b.events p) : e.assigns x = false :=
  Bool.eq_false_iff.mpr fun assigned => kept ⟨e, happens, assigned⟩

theorem Assigns.last {b : Body} {p : Point} {x : LocalId} (assigns : b.Assigns p x) :
    ∃ earlier e, b.events p = earlier ++ [e] ∧ e.assigns x := by
  obtain ⟨e, happens, assigned⟩ := assigns
  obtain ⟨earlier, later, spelled⟩ := List.append_of_mem happens
  cases later with
  | nil => exact ⟨earlier, e, spelled, assigned⟩
  | cons f rest =>
      have respelled : b.events p = (earlier ++ [e]) ++ f :: rest := by simp [spelled]
      have fetch := fetches_of_earlier respelled e (by simp)
      cases e <;> simp_all [Event.fetches, Event.assigns]

def MoveOnly (b : Body) (x : LocalId) : Prop :=
  ∃ decl, b.local? x = some decl ∧ decl.type.isCopy = false

def Mutable (b : Body) (x : LocalId) : Prop := ∃ decl, b.local? x = some decl ∧ decl.isMut = true

def ReadsAnywhere (b : Body) (x : LocalId) : Prop :=
  ∃ block ∈ b.blocks, (∃ s ∈ block.statements, x ∈ s.reads) ∨ x ∈ block.term.reads

/-- Control goes from a point to another: to the next statement, and from the terminator to the
start of a block that follows. -/
inductive Next (b : Body) : Point → Point → Prop
  | statement {i k : Nat} {block : Block} : b.blocks[i]? = some block →
      k < block.statements.length → Next b ⟨i, k⟩ ⟨i, k + 1⟩
  | jump {i target : Nat} {block : Block} : b.blocks[i]? = some block →
      (target : BlockId) ∈ block.term.successors →
      Next b ⟨i, block.statements.length⟩ ⟨target, 0⟩

/-- A finite path from a first point to a last one, with the points executed before the last. -/
inductive Path (b : Body) (first : Point) : List Point → Point → Prop
  | start : Path b first [] first
  | step {done : List Point} {p q : Point} : Path b first done p → b.Next p q →
      Path b first (done ++ [p]) q

namespace Path

theorem append {b : Body} {first middle last : Point} {done rest : List Point}
    (left : b.Path first done middle) (right : b.Path middle rest last) :
    b.Path first (done ++ rest) last := by
  induction right with
  | start =>
      rw [List.append_nil]
      exact left
  | step _ next ih =>
      rw [← List.append_assoc]
      exact .step ih next

theorem eq_of_nil {b : Body} {first last : Point} (path : b.Path first [] last) : last = first := by
  generalize spelled : [] = done at path
  cases path with
  | start => rfl
  | step path next => simp at spelled

theorem split {b : Body} {first p q : Point} {before between : List Point}
    (path : b.Path first (before ++ p :: between) q) :
    b.Path first before p ∧ ∃ next, b.Next p next ∧ b.Path next between q := by
  generalize spelled : before ++ p :: between = done at path
  induction path generalizing between with
  | start => simp at spelled
  | step path next ih =>
      rcases List.eq_nil_or_concat between with rfl | ⟨rest, last, rfl⟩
      · obtain ⟨rfl, same⟩ := List.append_inj' spelled rfl
        simp only [List.cons.injEq, and_true] at same
        subst same
        exact ⟨path, _, next, .start⟩
      · rw [List.concat_eq_append, ← List.cons_append, ← List.append_assoc] at spelled
        obtain ⟨front, same⟩ := List.append_inj' spelled rfl
        simp only [List.cons.injEq, and_true] at same
        subst same
        obtain ⟨reaching, second, leaving, onwards⟩ := ih front
        rw [List.concat_eq_append]
        exact ⟨reaching, second, leaving, .step onwards next⟩

end Path

end Body

end Mir

end BorrowChecker
