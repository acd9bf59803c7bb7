import BorrowChecker.Proofs.Step

/-!
What each event does to the slot of a local, and which rules it can break. The equations are exact;
the facts that later proofs use are read off them once, here.
-/

namespace BorrowChecker

namespace Ownership

open Mir

theorem moveOnly_iff {b : Body} {x : LocalId} : b.MoveOnly x ↔ isCopy b x = false := by
  unfold Body.MoveOnly isCopy
  cases b.local? x with
  | none => simp
  | some decl => simp

theorem mutable_iff {b : Body} {x : LocalId} :
    b.Mutable x ↔ borrowKind b x = .exclusive := by
  unfold Body.Mutable borrowKind
  cases b.local? x with
  | none => simp
  | some decl => simp

theorem has_of_moveOnly {b : Body} {x : LocalId} {s : State} (owned : b.MoveOnly x)
    (full : s.length = b.locals.length) : s.Has x := by
  obtain ⟨decl, found, _⟩ := owned
  unfold Body.local? at found
  split at found
  · simp at found
  · rename_i positive
    have below := (List.getElem?_eq_some_iff.mp found).1
    unfold State.Has LocalId at *
    omega

theorem has_of_hasLocal {b : Body} {x : LocalId} {s : State} (declared : b.hasLocal x)
    (full : s.length = b.locals.length) : s.Has x := by
  simp only [Body.hasLocal, Bool.and_eq_true, decide_eq_true_eq] at declared
  unfold State.Has
  rw [full]
  exact declared

theorem has_of_borrow {s : State} {x : LocalId} {br : Borrow}
    (member : br ∈ (s.slot x).borrows) : s.Has x := by
  by_contra missing
  rw [State.slot_of_not_has missing] at member
  simp at member

theorem useFault?_eq_none {b : Body} {s : State} {x : LocalId} {loc : Location} :
    useFault? b s x loc = none ↔ (isCopy b x = false → ¬ (s.slot x).Gone) := by
  unfold useFault? Slot.Gone
  split
  · simp_all
  · cases (s.slot x).tag <;> simp_all

theorem useFault?_eq_some {b : Body} {s : State} {x : LocalId} {loc : Location} {v : Violation}
    (fault : useFault? b s x loc = some v) : isCopy b x = false ∧
      ((s.slot x).tag = .moved ∧ v = .located .useAfterMove x (s.slot x).since loc ∨
        (s.slot x).tag = .dropped ∧ v = .located .useAfterFree x (s.slot x).since loc) := by
  unfold useFault? at fault
  split at fault
  · simp at fault
  · split at fault <;> simp_all

theorem slot_move (b : Body) (loc : Location) (id x : LocalId) (s : State) :
    (move b loc id s).state.slot x =
      if id = x ∧ s.Has x ∧ isCopy b x = false ∧ ¬ (s.slot x).Gone ∧ (s.slot x).borrows = [] then
        ⟨.moved, loc, []⟩ else s.slot x := by
  unfold move
  split
  · rename_i copied
    rw [if_neg]
    rintro ⟨rfl, _, owned, _⟩
    simp [copied] at owned
  · rename_i owned
    split
    · rename_i fault
      rw [if_neg]
      rintro ⟨rfl, _, moveOnly, usable, _⟩
      rw [useFault?_eq_none.mpr fun _ => usable] at fault
      simp at fault
    · rename_i usable
      split
      · rename_i borrowed
        rw [if_neg]
        rintro ⟨rfl, _, _, _, free⟩
        simp [free] at borrowed
      · rename_i free
        rw [State.slot_update]
        by_cases here : id = x
        · subst here
          have gone := useFault?_eq_none.mp usable (by simpa using owned)
          by_cases present : s.Has id
          · simp [present, gone, free, owned]
          · simp [present]
        · simp [here]

theorem slot_reinit (loc : Location) (dst x : LocalId) (s : State) :
    (reinit loc dst s).slot x =
      if dst = x ∧ s.Has x then ⟨.owned, loc, []⟩
      else (s.slot x).keepBorrows fun br => br.holder != dst := by
  rw [reinit, State.slot_releaseHolder, State.slot_update]
  split <;> rfl

theorem slot_drop (b : Body) (loc : Location) (id x : LocalId) (s : State) :
    (drop b loc id s).state.slot x =
      if id = x ∧ s.Has x ∧ isCopy b x = false ∧ ¬ (s.slot x).Gone then ⟨.dropped, loc, []⟩
      else s.slot x := by
  unfold drop Slot.Gone
  split
  · rename_i copied
    rw [if_neg]
    rintro ⟨rfl, _, owned, _⟩
    simp [copied] at owned
  · rename_i owned
    split
    · rename_i moved
      rw [if_neg]
      rintro ⟨rfl, _, _, usable⟩
      exact usable (.inl moved)
    · rename_i dropped
      rw [if_neg]
      rintro ⟨rfl, _, _, usable⟩
      exact usable (.inr dropped)
    · rw [State.slot_update]
      by_cases here : id = x
      · subst here
        simp_all
      · simp [here]
    · rw [State.slot_update]
      by_cases here : id = x
      · subst here
        simp_all
      · simp [here]

theorem length_reinit (loc : Location) (dst : LocalId) (s : State) :
    (reinit loc dst s).length = s.length := by
  simp [reinit, State.releaseHolder, State.length_update]

theorem slot_assign_ref (b : Body) (loc : Location) (target holder x : LocalId) (s : State) :
    (assign b loc holder (.ref target) s).state.slot x =
      if target = x ∧ s.Has x ∧ borrowFaults b s x loc = [] then
        ((reinit loc holder s).slot x).addBorrow ⟨borrowKind b x, loc, holder⟩
      else (reinit loc holder s).slot x := by
  have has : (reinit loc holder s).Has x ↔ s.Has x := by
    unfold State.Has
    rw [length_reinit]
  simp only [assign, rvalue, lend, List.isEmpty_iff]
  split
  · rename_i allowed
    rw [State.slot_update]
    by_cases here : target = x
    · subst here
      simp [allowed, has]
    · simp [here]
  · rename_i refused
    rw [if_neg]
    rintro ⟨rfl, _, allowed⟩
    exact refused allowed

theorem length_happen (b : Body) (loc : Location) (e : Event) (s : State) :
    (happen b loc e s).state.length = s.length := by
  cases e with
  | read id => rfl
  | move id =>
      simp only [happen, move]
      split
      · rfl
      · split
        · rfl
        · split
          · rfl
          · exact State.length_update ..
  | borrow target holder =>
      simp only [happen, assign, rvalue, lend]
      split
      · rw [State.length_update]
        exact length_reinit loc holder s
      · exact length_reinit loc holder s
  | assign dst => exact length_reinit loc dst s
  | drop id =>
      simp only [happen, drop]
      split
      · rfl
      · split
        · rfl
        · rfl
        · exact State.length_update ..
        · exact State.length_update ..

theorem length_happenAll (b : Body) (loc : Location) (events : List Event) (s : State) :
    (happenAll b loc events s).state.length = s.length := by
  induction events generalizing s with
  | nil => rfl
  | cons e rest ih => rw [happenAll, Outcome.andThen, ih, length_happen]

theorem tag_happen_frame (b : Body) (loc : Location) {e : Event} (s : State) {x : LocalId}
    (quiet : e.changes x = false) :
    ((happen b loc e s).state.slot x).tag = (s.slot x).tag ∧
      ((happen b loc e s).state.slot x).since = (s.slot x).since := by
  cases e with
  | read id => exact ⟨rfl, rfl⟩
  | move id =>
      have other : id ≠ x := by simpa [Event.changes, Event.assigns] using quiet
      rw [happen, slot_move, if_neg fun met => other met.1]
      exact ⟨rfl, rfl⟩
  | borrow target holder =>
      have other : holder ≠ x := by simpa [Event.changes, Event.assigns] using quiet
      have stored := slot_reinit loc holder x s
      rw [if_neg fun met => other met.1] at stored
      rw [happen, slot_assign_ref, stored]
      split <;> exact ⟨rfl, rfl⟩
  | assign dst =>
      have other : dst ≠ x := by simpa [Event.changes, Event.assigns] using quiet
      rw [happen, slot_reinit, if_neg fun met => other met.1]
      exact ⟨rfl, rfl⟩
  | drop id =>
      have other : id ≠ x := by simpa [Event.changes, Event.assigns] using quiet
      rw [happen, slot_drop, if_neg fun met => other met.1]
      exact ⟨rfl, rfl⟩

theorem tag_happen_assigns (b : Body) (loc : Location) {e : Event} {s : State} {x : LocalId}
    (assigned : e.assigns x) (present : s.Has x) :
    ((happen b loc e s).state.slot x).tag = .owned := by
  cases e with
  | read id => simp [Event.assigns] at assigned
  | move id => simp [Event.assigns] at assigned
  | drop id => simp [Event.assigns] at assigned
  | borrow target holder =>
      have here : holder = x := by simpa [Event.assigns] using assigned
      have stored := slot_reinit loc holder x s
      rw [if_pos ⟨here, present⟩] at stored
      rw [happen, slot_assign_ref, stored]
      split <;> rfl
  | assign dst =>
      have here : dst = x := by simpa [Event.assigns] using assigned
      rw [happen, slot_reinit, if_pos ⟨here, present⟩]

theorem mem_borrows_reinit {loc : Location} {dst x : LocalId} {s : State} {br : Borrow}
    (present : s.Has x) : br ∈ ((reinit loc dst s).slot x).borrows ↔
      br ∈ (s.slot x).borrows ∧ dst ≠ x ∧ dst ≠ br.holder := by
  rw [slot_reinit]
  by_cases here : dst = x
  · simp [here, present]
  · simp only [here, false_and, if_false, Slot.keepBorrows, List.mem_filter, bne_iff_ne, ne_eq,
      not_false_eq_true, true_and]
    exact and_congr Iff.rfl (not_congr eq_comm)

/-- A reference on a local after an event was taken by it, or was there before and is left alone
by it. -/
theorem mem_borrows_happen {b : Body} {loc : Location} {e : Event} {s : State} {x : LocalId}
    {br : Borrow} (member : br ∈ ((happen b loc e s).state.slot x).borrows) :
    e = .borrow x br.holder ∧ br = ⟨borrowKind b x, loc, br.holder⟩ ∨
      br ∈ (s.slot x).borrows ∧ e.assigns x = false ∧ e.assigns br.holder = false ∧
        (e = .drop x → isCopy b x = false → (s.slot x).Gone) := by
  have present : s.Has x := by
    have after := has_of_borrow member
    unfold State.Has at after ⊢
    rwa [length_happen] at after
  cases e with
  | read id => exact .inr ⟨member, rfl, rfl, by simp⟩
  | move id =>
      rw [happen, slot_move] at member
      split at member
      · simp at member
      · exact .inr ⟨member, rfl, rfl, by simp⟩
  | assign dst =>
      obtain ⟨old, notTarget, notHolder⟩ := (mem_borrows_reinit present).mp member
      exact .inr ⟨old, by simpa [Event.assigns], by simpa [Event.assigns], by simp⟩
  | borrow target holder =>
      have cases : br ∈ ((reinit loc holder s).slot x).borrows ∨
          target = x ∧ br = ⟨borrowKind b x, loc, holder⟩ := by
        rw [happen, slot_assign_ref] at member
        split at member
        · rename_i taken
          rcases Borrow.mem_insert.mp member with new | old
          · exact .inr ⟨taken.1, new⟩
          · exact .inl old
        · exact .inl member
      rcases cases with old | ⟨rfl, rfl⟩
      · obtain ⟨old, notTarget, notHolder⟩ := (mem_borrows_reinit present).mp old
        exact .inr ⟨old, by simpa [Event.assigns], by simpa [Event.assigns], by simp⟩
      · exact .inl ⟨rfl, rfl⟩
  | drop id =>
      rw [happen, slot_drop] at member
      split at member
      · simp at member
      · rename_i refused
        refine .inr ⟨member, rfl, rfl, ?_⟩
        intro same owned
        simp only [Event.drop.injEq] at same
        by_contra usable
        exact refused ⟨same, present, owned, usable⟩

theorem borrow_survives (b : Body) (loc : Location) {e : Event} {s : State} {x : LocalId}
    {br : Borrow} (member : br ∈ (s.slot x).borrows) (kept : e.assigns x = false)
    (held : e.assigns br.holder = false) (undropped : isCopy b x = false → e ≠ .drop x) :
    br ∈ ((happen b loc e s).state.slot x).borrows := by
  have present := has_of_borrow member
  cases e with
  | read id => exact member
  | move id =>
      rw [happen, slot_move]
      split
      · rename_i free
        simp [free.2.2.2.2] at member
      · exact member
  | assign dst =>
      simp only [Event.assigns, decide_eq_false_iff_not] at kept held
      exact (mem_borrows_reinit present).mpr ⟨member, kept, held⟩
  | borrow target holder =>
      simp only [Event.assigns, decide_eq_false_iff_not] at kept held
      have old := (@mem_borrows_reinit loc holder x s br present).mpr ⟨member, kept, held⟩
      rw [happen, slot_assign_ref]
      split
      · exact Borrow.mem_insert.mpr (.inr old)
      · exact old
  | drop id =>
      rw [happen, slot_drop, if_neg]
      · exact member
      · rintro ⟨rfl, _, owned, _⟩
        exact undropped owned rfl

/-- A value that is gone after an event went with it, or had gone before and was not replaced. -/
theorem gone_happen {b : Body} {loc : Location} {e : Event} {s : State} {x : LocalId}
    (gone : ((happen b loc e s).state.slot x).Gone) :
    e = .move x ∧ isCopy b x = false ∧ (happen b loc e s).state.slot x = ⟨.moved, loc, []⟩ ∨
      e = .drop x ∧ isCopy b x = false ∧ (happen b loc e s).state.slot x = ⟨.dropped, loc, []⟩ ∨
      e.assigns x = false ∧ ((happen b loc e s).state.slot x).tag = (s.slot x).tag ∧
        ((happen b loc e s).state.slot x).since = (s.slot x).since := by
  by_cases assigned : e.assigns x
  · have present : s.Has x := by
      by_contra missing
      have still : ¬ (happen b loc e s).state.Has x := by
        unfold State.Has at missing ⊢
        rwa [length_happen]
      rw [State.slot_of_not_has still] at gone
      simp [Slot.Gone] at gone
    simp [Slot.Gone, tag_happen_assigns b loc assigned present] at gone
  · by_cases moving : e = .move x
    · subst moving
      have slot := slot_move b loc x x s
      split at slot
      · rename_i met
        exact .inl ⟨rfl, met.2.2.1, slot⟩
      · exact .inr (.inr ⟨rfl, by rw [happen, slot], by rw [happen, slot]⟩)
    · by_cases dropping : e = .drop x
      · subst dropping
        have slot := slot_drop b loc x x s
        split at slot
        · rename_i met
          exact .inr (.inl ⟨rfl, met.2.2.1, slot⟩)
        · exact .inr (.inr ⟨rfl, by rw [happen, slot], by rw [happen, slot]⟩)
      · have quiet : e.changes x = false := by simp [Event.changes, assigned, moving, dropping]
        exact .inr (.inr ⟨by simpa using assigned, tag_happen_frame b loc s quiet⟩)

theorem tag_survives (b : Body) (loc : Location) {e : Event} {s : State} {x : LocalId}
    (gone : (s.slot x).Gone) (kept : e.assigns x = false) :
    ((happen b loc e s).state.slot x).tag = (s.slot x).tag := by
  by_cases moving : e = .move x
  · subst moving
    rw [happen, slot_move, if_neg fun met => met.2.2.2.1 gone]
  · by_cases dropping : e = .drop x
    · subst dropping
      rw [happen, slot_drop, if_neg fun met => met.2.2.2 gone]
    · have quiet : e.changes x = false := by simp [Event.changes, kept, moving, dropping]
      exact (tag_happen_frame b loc s quiet).1

theorem gone_survives (b : Body) (loc : Location) {e : Event} {s : State} {x : LocalId}
    (gone : (s.slot x).Gone) (kept : e.assigns x = false) :
    ((happen b loc e s).state.slot x).Gone := by
  unfold Slot.Gone
  rw [tag_survives b loc gone kept]
  exact gone

theorem gone_of_move {b : Body} (loc : Location) {s : State} {x : LocalId}
    (owned : isCopy b x = false) (present : s.Has x) (free : (s.slot x).borrows = []) :
    ((happen b loc (.move x) s).state.slot x).Gone := by
  by_cases gone : (s.slot x).Gone
  · exact gone_survives b loc gone rfl
  · rw [happen, slot_move, if_pos ⟨rfl, present, owned, gone, free⟩]
    exact .inl rfl

theorem gone_of_drop {b : Body} (loc : Location) {s : State} {x : LocalId}
    (owned : isCopy b x = false) (present : s.Has x) :
    ((happen b loc (.drop x) s).state.slot x).Gone := by
  by_cases gone : (s.slot x).Gone
  · exact gone_survives b loc gone rfl
  · rw [happen, slot_drop, if_pos ⟨rfl, present, owned, gone⟩]
    exact .inr rfl

inductive Fault (b : Body) (loc : Location) (s : State) : Event → Violation → Prop
  | moved {e : Event} {x : LocalId} : e.uses x → isCopy b x = false → (s.slot x).tag = .moved →
      Fault b loc s e (.located .useAfterMove x (s.slot x).since loc)
  | dropped {e : Event} {x : LocalId} : e.uses x → isCopy b x = false →
      (s.slot x).tag = .dropped →
      Fault b loc s e (.located .useAfterFree x (s.slot x).since loc)
  | again {x : LocalId} : isCopy b x = false → (s.slot x).tag = .dropped →
      Fault b loc s (.drop x) (.located .doubleFree x (s.slot x).since loc)
  | conflict {x holder : LocalId} {br : Borrow} : (isCopy b x = false → ¬ (s.slot x).Gone) →
      br ∈ (s.slot x).borrows → borrowKind b x = .exclusive ∨ br.kind = .exclusive →
      Fault b loc s (.borrow x holder) (.located .mutableBorrowConflict x br.site loc)
  | borrowed {x : LocalId} {br : Borrow} : isCopy b x = false → ¬ (s.slot x).Gone →
      br ∈ (s.slot x).borrows →
      Fault b loc s (.move x) (.located .moveWhileBorrowed x br.site loc)

/-- An event breaks rules only about the local that it needs or drops. -/
theorem Fault.place_eq {b : Body} {loc : Location} {s : State} {e : Event} {v : Violation}
    {x : LocalId} (fault : Fault b loc s e v) (about : e.uses x ∨ e = .drop x) : v.place = x := by
  cases fault with
  | moved uses | dropped uses =>
      simp only [Violation.located]
      cases e <;> simp_all [Event.uses]
  | again | conflict | borrowed => simpa [Event.uses, Violation.located] using about

theorem Fault.of_use {b : Body} {loc : Location} {s : State} {e : Event} {x : LocalId}
    {v : Violation} (uses : e.uses x) (fault : useFault? b s x loc = some v) :
    Fault b loc s e v := by
  obtain ⟨owned, ⟨moved, rfl⟩ | ⟨dropped, rfl⟩⟩ := useFault?_eq_some fault
  · exact .moved uses owned moved
  · exact .dropped uses owned dropped

theorem Fault.second_eq {b : Body} {loc : Location} {s : State} {e : Event} {v : Violation}
    (fault : Fault b loc s e v) : v.second = loc := by
  cases fault <;> rfl

theorem useFault?_of_gone {b : Body} {s : State} {x : LocalId} (loc : Location)
    (owned : isCopy b x = false) (gone : (s.slot x).Gone) : ∃ v, useFault? b s x loc = some v := by
  cases fault : useFault? b s x loc with
  | none => exact absurd gone (useFault?_eq_none.mp fault owned)
  | some v => exact ⟨v, rfl⟩

theorem found_of_useFault {b : Body} {loc : Location} {e : Event} {s : State} {x : LocalId}
    {v : Violation} (uses : e.uses x) (fault : useFault? b s x loc = some v) :
    v ∈ (happen b loc e s).found := by
  have owned := (useFault?_eq_some fault).1
  cases e with
  | read id =>
      obtain rfl : id = x := by simpa [Event.uses] using uses
      simp [happen, read, fault]
  | move id =>
      obtain rfl : id = x := by simpa [Event.uses] using uses
      simp [happen, move, owned, fault]
  | borrow target holder =>
      obtain rfl : target = x := by simpa [Event.uses] using uses
      simp [happen, assign, rvalue, borrowFaults, fault]
  | assign dst => simp [Event.uses] at uses
  | drop id => simp [Event.uses] at uses

theorem found_of_borrowed {b : Body} (loc : Location) {s : State} {x : LocalId} {br : Borrow}
    (owned : isCopy b x = false) (there : ¬ (s.slot x).Gone) (member : br ∈ (s.slot x).borrows) :
    ∃ site, .located .moveWhileBorrowed x site loc ∈ (happen b loc (.move x) s).found := by
  simp only [happen, move, owned, Bool.false_eq_true, if_false,
    useFault?_eq_none.mpr fun _ => there]
  cases spelled : (s.slot x).borrows with
  | nil => simp [spelled] at member
  | cons first rest => exact ⟨first.site, by simp⟩

theorem found_of_dropped {b : Body} (loc : Location) {s : State} {x : LocalId}
    (owned : isCopy b x = false) (dropped : (s.slot x).tag = .dropped) :
    .located .doubleFree x (s.slot x).since loc ∈ (happen b loc (.drop x) s).found := by
  simp [happen, drop, owned, dropped]

theorem fault_of_found {b : Body} {loc : Location} {e : Event} {s : State} {v : Violation}
    (found : v ∈ (happen b loc e s).found) : Fault b loc s e v := by
  cases e with
  | read id =>
      simp only [happen, read, Option.mem_toList] at found
      exact .of_use (by simp [Event.uses]) found
  | assign dst => simp [happen] at found
  | move id =>
      simp only [happen, move] at found
      split at found
      · simp at found
      · rename_i owned
        split at found
        · rename_i fault
          simp only [List.mem_singleton] at found
          subst found
          exact .of_use (by simp [Event.uses]) fault
        · rename_i usable
          split at found
          · rename_i br rest borrows
            simp only [List.mem_singleton] at found
            subst found
            have moveOnly : isCopy b id = false := by simpa using owned
            exact .borrowed moveOnly (useFault?_eq_none.mp usable moveOnly) (by simp [borrows])
          · simp at found
  | borrow target holder =>
      simp only [happen, assign, rvalue, borrowFaults] at found
      split at found
      · rename_i fault
        simp only [List.mem_singleton] at found
        subst found
        exact .of_use (by simp [Event.uses]) fault
      · rename_i usable
        simp only [conflicts, List.mem_map, List.mem_filter, Bool.or_eq_true,
          decide_eq_true_eq] at found
        obtain ⟨br, ⟨member, exclusive⟩, rfl⟩ := found
        exact .conflict (useFault?_eq_none.mp usable) member exclusive
  | drop id =>
      simp only [happen, drop] at found
      split at found
      · simp at found
      · rename_i owned
        split at found
        · simp at found
        · rename_i dropped
          simp only [List.mem_singleton] at found
          subst found
          exact .again (by simpa using owned) dropped
        · simp at found
        · simp at found

theorem usable_of_clean {b : Body} {loc : Location} {e : Event} {s : State} {x : LocalId}
    (clean : (happen b loc e s).found = []) (uses : e.uses x) (owned : isCopy b x = false) :
    ¬ (s.slot x).Gone := by
  refine (@useFault?_eq_none b s x loc).mp ?_ owned
  cases e with
  | read id =>
      have here : id = x := by simpa [Event.uses] using uses
      subst here
      simpa [happen, read] using clean
  | move id =>
      have here : id = x := by simpa [Event.uses] using uses
      subst here
      simp only [happen, move, owned, Bool.false_eq_true, if_false] at clean
      split at clean <;> simp_all
  | borrow target holder =>
      have here : target = x := by simpa [Event.uses] using uses
      subst here
      simp only [happen, assign, rvalue, borrowFaults] at clean
      split at clean <;> simp_all
  | assign dst => simp [Event.uses] at uses
  | drop id => simp [Event.uses] at uses

theorem unborrowed_of_clean_move {b : Body} {loc : Location} {s : State} {x : LocalId}
    (clean : (happen b loc (.move x) s).found = []) (owned : isCopy b x = false) :
    (s.slot x).borrows = [] := by
  have usable := usable_of_clean clean (by simp [Event.uses]) owned
  simp only [happen, move, owned, Bool.false_eq_true, if_false,
    useFault?_eq_none.mpr fun _ => usable] at clean
  split at clean
  · simp at clean
  · assumption

theorem gone_of_clean_move {b : Body} {loc : Location} {s : State} {x : LocalId}
    (clean : (happen b loc (.move x) s).found = []) (owned : isCopy b x = false)
    (present : s.Has x) : ((happen b loc (.move x) s).state.slot x).Gone :=
  gone_of_move loc owned present (unborrowed_of_clean_move clean owned)

theorem unborrowed_of_clean_borrow {b : Body} {loc : Location} {s : State} {x holder : LocalId}
    (clean : (happen b loc (.borrow x holder) s).found = [])
    (exclusive : borrowKind b x = .exclusive) : (s.slot x).borrows = [] := by
  simp only [happen, assign, rvalue, borrowFaults] at clean
  split at clean
  · simp at clean
  · simpa [conflicts, exclusive] using clean

theorem borrow_recorded {b : Body} {loc : Location} {s : State} {x holder : LocalId}
    (clean : (happen b loc (.borrow x holder) s).found = []) (present : s.Has x) :
    ⟨borrowKind b x, loc, holder⟩ ∈
      ((happen b loc (.borrow x holder) s).state.slot x).borrows := by
  rw [happen, slot_assign_ref, if_pos ⟨rfl, present, clean⟩]
  exact Borrow.mem_insert.mpr (.inl rfl)

theorem undropped_of_clean {b : Body} {loc : Location} {s : State} {x : LocalId}
    (clean : (happen b loc (.drop x) s).found = []) (owned : isCopy b x = false) :
    (s.slot x).tag ≠ .dropped := by
  intro dropped
  simp [happen, drop, owned, dropped] at clean

end Ownership

end BorrowChecker
