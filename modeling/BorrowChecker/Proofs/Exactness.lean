import BorrowChecker.Proofs.Provenance
import BorrowChecker.Proofs.Release
import Mathlib

/-!
Uses of released values, exactly. Whatever the analysis takes for gone is gone on some path. Where
no move out of a local is refused, as when no reference to it is ever taken, it also takes for gone
all that is gone on some path. So what it reports of such a local are the uses that some path makes
of a released value, and no others.
-/

namespace BorrowChecker

namespace Mir

namespace Body

def Lends (b : Body) (x : LocalId) : Prop := ∃ p holder, .borrow x holder ∈ b.events p

/-- Some path from the entry gets to a point, and past earlier events there, so that the last thing
that happened to a local took its value away. -/
def ReleasedAt (b : Body) (x : LocalId) (p : Point) (earlier : List Event) : Prop :=
  ∃ done, b.Path .entry done p ∧ Event.Released x (b.trace done ++ earlier)

theorem ReleasedAt.concat {b : Body} {x : LocalId} {p : Point} {earlier : List Event} {e : Event}
    (reached : b.Reached p) (kept : e.assigns x = false)
    (released : e = .move x ∨ e = .drop x ∨ b.ReleasedAt x p earlier) :
    b.ReleasedAt x p (earlier ++ [e]) := by
  obtain ⟨way, path⟩ := reached
  rcases released with moved | dropped | ⟨done, path, released⟩
  · refine ⟨way, path, ?_⟩
    rw [← List.append_assoc]
    exact Event.released_concat kept (.inl moved)
  · refine ⟨way, path, ?_⟩
    rw [← List.append_assoc]
    exact Event.released_concat kept (.inr (.inl dropped))
  · refine ⟨done, path, ?_⟩
    rw [← List.append_assoc]
    exact Event.released_concat kept (.inr (.inr released))

theorem ReleasedAt.next {b : Body} {x : LocalId} {p q : Point} (next : b.Next p q)
    (released : b.ReleasedAt x p (b.events p)) : b.ReleasedAt x q [] := by
  obtain ⟨done, path, released⟩ := released
  refine ⟨done ++ [p], .step path next, ?_⟩
  rwa [List.append_nil, trace_concat]

/-- Some path from the entry uses a local at a point when the last thing that happened to it took
its value away, at an earlier point or by an earlier operand of the same one. -/
def UsesReleased (b : Body) (x : LocalId) (p : Point) : Prop :=
  ∃ earlier e later, b.events p = earlier ++ e :: later ∧ e.uses x ∧ b.ReleasedAt x p earlier

end Body

end Mir

namespace Ownership

open Mir

def Traced (b : Body) (x : LocalId) (p : Point) (earlier : List Event) (s : State) : Prop :=
  (s.slot x).Gone → b.ReleasedAt x p earlier

theorem Traced.happen {b : Body} {x : LocalId} {p : Point} {earlier : List Event} {s : State}
    (traced : Traced b x p earlier s) (reached : b.Reached p) (e : Event) :
    Traced b x p (earlier ++ [e]) (happen b p.location e s).state := by
  intro gone
  rcases gone_happen gone with ⟨rfl, _⟩ | ⟨rfl, _⟩ | ⟨kept, tag, _⟩
  · exact .concat reached rfl (.inl rfl)
  · exact .concat reached rfl (.inr (.inl rfl))
  · have before : (s.slot x).Gone := by
      unfold Slot.Gone at gone ⊢
      rwa [tag] at gone
    exact .concat reached kept (.inr (.inr (traced before)))

theorem Traced.through {b : Body} {x : LocalId} {p : Point} {s : State}
    (traced : Traced b x p [] s) (reached : b.Reached p) (events : List Event) :
    Traced b x p events
      (happenAll b p.location events (expire (.ofBody b) p.location s)).state := by
  refine happenAll_stepwise (Traced b x p) ?_ ?_
  · intro earlier e _ _ traced
    exact traced.happen reached e
  · intro gone
    rw [slot_expire] at gone
    exact traced gone

theorem stateBefore?_traced {b : Body} (valid : b.isValid) (x : LocalId) {p : Point}
    (there : b.HasPoint p) {s : State} (known : stateBefore? b p = some s) :
    b.Reached p ∧ Traced b x p [] s := by
  have both := stateBefore?_induction valid (fun p s => Justified b p s ∧ Traced b x p [] s)
    ⟨justified_initial b, fun gone => absurd gone (slot_initial b x).1⟩ ?_ ?_ there known
  · exact ⟨both.1.reached, both.2⟩
  · rintro p s t ⟨left, leftTraced⟩ ⟨right, rightTraced⟩
    refine ⟨left.join right, ?_⟩
    intro gone
    rw [State.slot_join (by rw [left.proper.full, right.proper.full])] at gone
    rcases Slot.gone_join.mp gone with gone | gone
    · exact leftTraced gone
    · exact rightTraced gone
  · rintro p q s ⟨justified, traced⟩ next
    refine ⟨justified.next next, ?_⟩
    intro gone
    exact (traced.through justified.reached (b.events p) gone).next next

theorem Occurs.releasedAt {b : Body} (valid : b.isValid) {x : LocalId} {p : Point}
    {earlier : List Event} {e : Event} {s : State} (occurs : Occurs b p earlier e s)
    (gone : (s.slot x).Gone) : b.ReleasedAt x p earlier := by
  obtain ⟨start, later, there, known, _, rfl⟩ := occurs
  obtain ⟨reached, traced⟩ := stateBefore?_traced valid x there known
  exact traced.through reached earlier gone

/-- A violation of some kind is found with a local, and its second location is a given one. -/
def Reports (b : Body) (kind : ViolationKind) (x : LocalId) (loc : Location) : Prop :=
  ∃ v ∈ check b, v.kind = kind ∧ v.place = x ∧ v.second = loc

theorem Reports.fault {b : Body} (valid : b.isValid) {kind : ViolationKind} {x : LocalId}
    {loc : Location} (reports : Reports b kind x loc) (located : kind ≠ .undeclaredLifetime) :
    ∃ p earlier e s v, p.location = loc ∧ Occurs b p earlier e s ∧ Fault b p.location s e v ∧
      v.kind = kind ∧ v.place = x := by
  obtain ⟨v, found, rfl, rfl, rfl⟩ := reports
  obtain ⟨p, earlier, e, s, occurs, reported⟩ := (mem_check_iff_occurs valid located).mp found
  have fault := fault_of_found reported
  exact ⟨p, earlier, e, s, v, fault.second_eq.symm, occurs, fault, rfl, rfl⟩

theorem Occurs.reports {b : Body} (valid : b.isValid) {p : Point} {earlier : List Event} {e : Event}
    {s : State} (occurs : Occurs b p earlier e s) {v : Violation}
    (found : v ∈ (happen b p.location e s).found) : Reports b v.kind v.place p.location := by
  have fault := fault_of_found found
  refine ⟨v, ?_, rfl, rfl, fault.second_eq⟩
  exact (mem_check_iff_occurs valid fault.kind_ne).mpr ⟨p, earlier, e, s, occurs, found⟩

def MovesFreely (b : Body) (x : LocalId) : Prop := ∀ loc, ¬ Reports b .moveWhileBorrowed x loc

theorem movesFreely_iff {b : Body} {x : LocalId} :
    MovesFreely b x ↔ ∀ v ∈ check b, v.kind = .moveWhileBorrowed → v.place ≠ x := by
  constructor
  · intro free v found refused place
    exact free v.second ⟨v, found, refused, place, rfl⟩
  · rintro free loc ⟨v, found, refused, place, _⟩
    exact free v found refused place

theorem movesFreely_of_unlent {b : Body} (valid : b.isValid) {x : LocalId} (unlent : ¬ b.Lends x) :
    MovesFreely b x := by
  intro loc reports
  obtain ⟨p, earlier, e, s, v, _, occurs, fault, refused, rfl⟩ := reports.fault valid (by simp)
  cases fault with
  | @borrowed x br owned there member =>
      obtain ⟨q, _, lends, _⟩ := (occurs.proper valid).sited x br member
      exact unlent ⟨q, br.holder, lends⟩
  | moved | dropped | again | conflict => simp [Violation.located] at refused

theorem Quiet.movesFreely {b : Body} {x : LocalId} (quiet : Quiet b x) : MovesFreely b x := by
  rw [movesFreely_iff]
  intro v found refused
  exact quiet v found (by simp [refused])

theorem Occurs.gone_of_free_move {b : Body} (valid : b.isValid) {x : LocalId}
    (free : MovesFreely b x) (owned : isCopy b x = false) {p : Point} {earlier : List Event}
    {s : State} (occurs : Occurs b p earlier (.move x) s) :
    ((happen b p.location (.move x) s).state.slot x).Gone := by
  by_cases gone : (s.slot x).Gone
  · exact gone_survives b p.location gone rfl
  · have present := has_of_moveOnly (moveOnly_iff.mpr owned) (occurs.proper valid).full
    refine gone_of_move p.location owned present ?_
    rw [List.eq_nil_iff_forall_not_mem]
    intro br member
    obtain ⟨site, found⟩ := found_of_borrowed p.location owned gone member
    exact free _ (occurs.reports valid found)

/-- Where moves out of a local are never refused, what is gone on some path is known to be gone. -/
theorem occurs_of_releasedAt {b : Body} (valid : b.isValid) {x : LocalId} (free : MovesFreely b x)
    (owned : isCopy b x = false) {p : Point} {earlier later : List Event} {e : Event}
    (happens : b.events p = earlier ++ e :: later) (released : b.ReleasedAt x p earlier) :
    ∃ s, Occurs b p earlier e s ∧ (s.slot x).Gone := by
  have moved : ∀ p earlier s, Occurs b p earlier (.move x) s →
      ((happen b p.location (.move x) s).state.slot x).Gone :=
    fun _ _ _ occurs => occurs.gone_of_free_move valid free owned
  obtain ⟨done, path, released⟩ := released
  obtain ⟨there, start, known, tracks⟩ := tracks_path_of_moves valid owned moved path
  have proper := (stateBefore?_proper valid there known).expire (.ofBody b) p.location
  have present := has_of_moveOnly (moveOnly_iff.mpr owned) proper.full
  refine ⟨_, ⟨start, later, there, known, happens, rfl⟩, ?_⟩
  refine (tracks.expire _ _).through owned present ?_ released
  intro front rest spelled
  refine moved p front _ ⟨start, rest ++ e :: later, there, known, ?_, rfl⟩
  rw [happens, spelled, List.append_assoc, List.cons_append]

theorem Occurs.reports_use {b : Body} (valid : b.isValid) {p : Point} {earlier : List Event}
    {e : Event} {s : State} (occurs : Occurs b p earlier e s) {x : LocalId} (uses : e.uses x)
    (owned : isCopy b x = false) (gone : (s.slot x).Gone) :
    Reports b .useAfterMove x p.location ∨ Reports b .useAfterFree x p.location := by
  obtain ⟨v, fault⟩ := useFault?_of_gone p.location owned gone
  have reported := occurs.reports valid (found_of_useFault uses fault)
  obtain ⟨_, ⟨_, rfl⟩ | ⟨_, rfl⟩⟩ := useFault?_eq_some fault
  · exact .inl reported
  · exact .inr reported

theorem Reports.use {b : Body} (valid : b.isValid) {kind : ViolationKind} {x : LocalId}
    {loc : Location} (reports : Reports b kind x loc)
    (use : kind = .useAfterMove ∨ kind = .useAfterFree) :
    ∃ p earlier e s, p.location = loc ∧ Occurs b p earlier e s ∧ e.uses x ∧ isCopy b x = false ∧
      (kind = .useAfterMove ∧ (s.slot x).tag = .moved ∨
        kind = .useAfterFree ∧ (s.slot x).tag = .dropped) := by
  have located : kind ≠ .undeclaredLifetime := by
    rintro rfl
    simp at use
  obtain ⟨p, earlier, e, s, v, rfl, occurs, fault, rfl, rfl⟩ := reports.fault valid located
  cases fault with
  | moved uses owned moved =>
      exact ⟨p, earlier, e, s, rfl, occurs, uses, owned, .inl ⟨rfl, moved⟩⟩
  | dropped uses owned dropped =>
      exact ⟨p, earlier, e, s, rfl, occurs, uses, owned, .inr ⟨rfl, dropped⟩⟩
  | again | conflict | borrowed => simp [Violation.located] at use

theorem usesReleased_of_reports {b : Body} (valid : b.isValid) {x : LocalId} {loc : Location}
    (reports : Reports b .useAfterMove x loc ∨ Reports b .useAfterFree x loc) :
    isCopy b x = false ∧ ∃ p, p.location = loc ∧ b.UsesReleased x p := by
  obtain ⟨kind, use, reports⟩ : ∃ kind, (kind = .useAfterMove ∨ kind = .useAfterFree) ∧
      Reports b kind x loc := by
    rcases reports with moved | freed
    · exact ⟨_, .inl rfl, moved⟩
    · exact ⟨_, .inr rfl, freed⟩
  obtain ⟨p, earlier, e, s, rfl, occurs, uses, owned, tag⟩ := reports.use valid use
  have released := occurs.releasedAt valid (tag.imp And.right And.right)
  obtain ⟨_, later, _, _, happens, _⟩ := occurs
  exact ⟨owned, p, rfl, earlier, e, later, happens, uses, released⟩

theorem reports_of_usesReleased {b : Body} (valid : b.isValid) {x : LocalId}
    (free : MovesFreely b x) (owned : isCopy b x = false) {p : Point} (uses : b.UsesReleased x p) :
    Reports b .useAfterMove x p.location ∨ Reports b .useAfterFree x p.location := by
  obtain ⟨earlier, e, later, happens, uses, released⟩ := uses
  obtain ⟨s, occurs, gone⟩ := occurs_of_releasedAt valid free owned happens released
  exact occurs.reports_use valid uses owned gone

/-- A use of a move-only local to which no reference is ever taken is reported at a point exactly if
some path makes it after the value was moved or dropped. -/
theorem reports_use_iff {b : Body} (valid : b.isValid) {x : LocalId} (owned : b.MoveOnly x)
    (unlent : ¬ b.Lends x) (p : Point) :
    Reports b .useAfterMove x p.location ∨ Reports b .useAfterFree x p.location ↔
      b.UsesReleased x p := by
  constructor
  · intro reports
    obtain ⟨_, q, same, uses⟩ := usesReleased_of_reports valid reports
    exact Point.location_inj same ▸ uses
  · exact reports_of_usesReleased valid (movesFreely_of_unlent valid unlent) (moveOnly_iff.mp owned)

/-- The second time round the loop the value has gone, and its use is reported. -/
theorem drained_reports_use :
    drained.isValid ∧ drained.MoveOnly 2 ∧ ¬ drained.Lends 2 ∧ drained.UsesReleased 2 .entry ∧
      (Reports drained .useAfterMove 2 ⟨0, 0⟩ ∨ Reports drained .useAfterFree 2 ⟨0, 0⟩) := by
  have valid : drained.isValid := by decide
  have owned : drained.MoveOnly 2 := ⟨_, rfl, rfl⟩
  have unlent : ¬ drained.Lends 2 := by
    rintro ⟨p, holder, lends⟩
    obtain ⟨block, found, stands⟩ := Body.statement_of_borrow lends
    have member := List.mem_of_getElem? found
    simp only [drained, List.mem_cons, List.not_mem_nil, or_false] at member
    rcases member with rfl | rfl
    · simpa using List.mem_of_getElem? stands
    · simpa using List.mem_of_getElem? stands
  have round : drained.Path .entry [⟨0, 0⟩, ⟨0, 1⟩] .entry :=
    .step (.step .start (.statement rfl (by decide)))
      (@Body.Next.jump drained 0 0 _ rfl (by decide))
  have uses : drained.UsesReleased 2 .entry :=
    ⟨[], .move 2, [.assign 3], rfl, rfl, _, round, by decide⟩
  exact ⟨valid, owned, unlent, uses, (reports_use_iff valid owned unlent .entry).mpr uses⟩

end Ownership

end BorrowChecker
