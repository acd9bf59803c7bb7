import BorrowChecker.Ownership.Lifetime
import Mathlib

/-!
The lifetimes of types, told by positions. A position says which part of a type to take, which part
of that, and so on; positions in the order of the dictionary are the order in which a type is read
from left to right. Main statement: the bounds that are understood where none are written, and the
lifetimes that are reported as undeclared, are exactly those that the positions call for
(`lifetimes_exact`).
-/

namespace BorrowChecker

namespace Mir

namespace Ty

/-- What is attached to a type, from left to right. -/
def parts (t : Ty) : List Ty := t.elem.toList ++ t.elems ++ t.params ++ t.result.toList

def tupleParts (t : Ty) : List Ty := if t.shape = .tuple then t.elems else []

/-- A type stands in another at a position, through parts of a kind. -/
inductive At (parts : Ty → List Ty) : Ty → List Nat → Ty → Prop where
  | here (t : Ty) : At parts t [] t
  | part {t u v : Ty} {i : Nat} {path : List Nat} (takes : (parts t)[i]? = some u)
      (more : At parts u path v) : At parts t (i :: path) v

def Mentions (t : Ty) (path : List Nat) (name : Text) : Prop :=
  name ≠ [] ∧ ∃ u, At parts t path u ∧ u.lifetime = name

/-- A reference with a lifetime is a type, or stands in it through nothing but tuples. -/
def Brings (t : Ty) (path : List Nat) (name : Text) : Prop :=
  name ≠ [] ∧ ∃ u, At tupleParts t path u ∧ u.isRef ∧ u.lifetime = name

def BringsFirst (t : Ty) (name : Text) : Prop :=
  ∃ path, t.Brings path name ∧ ∀ later other, t.Brings later other → path ≤ later

variable {t : Ty} {path : List Nat} {name : Text}

theorem at_nil {parts : Ty → List Ty} {u : Ty} : At parts t [] u ↔ u = t := by
  constructor
  · rintro ⟨⟩
    rfl
  · rintro rfl
    exact .here u

theorem at_cons {parts : Ty → List Ty} {i : Nat} {v : Ty} :
    At parts t (i :: path) v ↔ ∃ u, (parts t)[i]? = some u ∧ At parts u path v := by
  constructor
  · rintro (_ | ⟨takes, more⟩)
    exact ⟨_, takes, more⟩
  · rintro ⟨u, takes, more⟩
    exact .part takes more

/-- What is found below a part is found in the part. -/
theorem found_cons {parts : Ty → List Ty} {present : Prop} {found : Ty → Prop} {i : Nat} :
    (present ∧ ∃ v, At parts t (i :: path) v ∧ found v) ↔
      ∃ u, (parts t)[i]? = some u ∧ present ∧ ∃ v, At parts u path v ∧ found v := by
  simp only [at_cons]
  constructor
  · rintro ⟨present, v, ⟨u, takes, more⟩, same⟩
    exact ⟨u, takes, present, v, more, same⟩
  · rintro ⟨u, takes, present, v, more, same⟩
    exact ⟨present, v, ⟨u, takes, more⟩, same⟩

theorem at_unique {parts : Ty → List Ty} {u v : Ty} (first : At parts t path u)
    (second : At parts t path v) : u = v := by
  induction first with
  | here t => exact (at_nil.mp second).symm
  | part takes _ ih =>
      obtain ⟨w, again, more⟩ := at_cons.mp second
      obtain rfl := Option.some.inj (takes.symm.trans again)
      exact ih more

theorem sizeOf_lt_of_mem_parts {u : Ty} (member : u ∈ t.parts) : sizeOf u < sizeOf t := by
  obtain ⟨shape, text, lifetime, elem, elems, params, result⟩ := t
  simp only [parts, List.mem_append, Option.mem_toList] at member
  simp only [Ty.mk.sizeOf_spec]
  rcases member with ((here | here) | here) | here
  · simp only [here, Option.some.sizeOf_spec]
    omega
  · have := List.sizeOf_lt_of_mem here
    omega
  · have := List.sizeOf_lt_of_mem here
    omega
  · simp only [here, Option.some.sizeOf_spec]
    omega

theorem parts_induction {motive : Ty → Prop}
    (step : ∀ t : Ty, (∀ u ∈ t.parts, motive u) → motive t) (t : Ty) : motive t :=
  step t fun u _member => parts_induction step u
termination_by sizeOf t
decreasing_by exact sizeOf_lt_of_mem_parts _member

/-! ## Every lifetime of a type -/

theorem lifetimesOfAll_eq (ts : List Ty) : lifetimesOfAll ts = ts.flatMap lifetimes := by
  induction ts with
  | nil => rfl
  | cons t rest ih => rw [lifetimesOfAll, ih, List.flatMap_cons]

theorem lifetimesOfOption_eq (t : Option Ty) :
    lifetimesOfOption t = t.toList.flatMap lifetimes := by
  cases t with
  | none => rfl
  | some t => simp [lifetimesOfOption]

theorem lifetimes_eq (t : Ty) : t.lifetimes =
    (if t.lifetime.isEmpty then [] else [t.lifetime]) ++ t.parts.flatMap lifetimes := by
  obtain ⟨shape, text, lifetime, elem, elems, params, result⟩ := t
  simp [lifetimes, parts, lifetimesOfAll_eq, lifetimesOfOption_eq, List.flatMap_append]

theorem mentions_nil : t.Mentions [] name ↔ name ≠ [] ∧ t.lifetime = name := by
  simp [Mentions, at_nil]

theorem mentions_cons {i : Nat} :
    t.Mentions (i :: path) name ↔ ∃ u, t.parts[i]? = some u ∧ u.Mentions path name :=
  found_cons

/-- A list of names with their positions from left to right: it has all that a predicate tells. -/
structure Charts (chart : List (List Nat × Text)) (names : List Text)
    (tells : List Nat → Text → Prop) : Prop where
  names : chart.map Prod.snd = names
  ordered : chart.Pairwise fun a c => a.1 < c.1
  complete : ∀ entry : List Nat × Text, entry ∈ chart ↔ tells entry.1 entry.2

/-- The charts of some parts make up one chart, when each position starts with its part's number. -/
theorem charts_flatMap {ts : List Ty}
    (each : ∀ t ∈ ts, ∃ chart, Charts chart t.lifetimes t.Mentions) (first : Nat) :
    ∃ chart, Charts chart (ts.flatMap lifetimes) fun path name =>
      ∃ i u rest, path = (first + i) :: rest ∧ ts[i]? = some u ∧ u.Mentions rest name := by
  induction ts generalizing first with
  | nil => exact ⟨[], rfl, .nil, by simp⟩
  | cons t more ih =>
      obtain ⟨chart, names, ordered, complete⟩ := each t (List.mem_cons_self ..)
      obtain ⟨later, laterNames, laterOrdered, laterComplete⟩ :=
        ih (fun u member => each u (List.mem_cons_of_mem t member)) (first + 1)
      refine ⟨chart.map (fun entry => (first :: entry.1, entry.2)) ++ later, ?_, ?_, ?_⟩
      · simp [List.map_append, ← names, laterNames, Function.comp_def]
      · rw [List.pairwise_append, List.pairwise_map]
        refine ⟨ordered.imp fun below => List.Lex.cons below, laterOrdered, ?_⟩
        intro a here c there
        obtain ⟨entry, _, rfl⟩ := List.mem_map.mp here
        obtain ⟨i, u, rest, path, _⟩ := (laterComplete c).mp there
        rw [path]
        exact List.Lex.rel (by omega)
      · rintro ⟨path, name⟩
        rw [List.mem_append, laterComplete, List.mem_map]
        constructor
        · rintro (⟨entry, here, same⟩ | ⟨i, u, rest, rfl, takes, told⟩)
          · obtain ⟨rfl, rfl⟩ := Prod.mk.inj same
            exact ⟨0, t, entry.1, rfl, rfl, (complete entry).mp here⟩
          · exact ⟨i + 1, u, rest, by simp; omega, takes, told⟩
        · rintro ⟨i, u, rest, rfl, takes, told⟩
          cases i with
          | zero =>
              obtain rfl := Option.some.inj takes
              exact .inl ⟨(rest, name), (complete (rest, name)).mpr told, rfl⟩
          | succ i => exact .inr ⟨i, u, rest, by simp; omega, takes, told⟩

/-- The lifetimes of a type are those it mentions, from left to right. -/
theorem lifetimes_charted (t : Ty) : ∃ chart, Charts chart t.lifetimes t.Mentions := by
  induction t using parts_induction with
  | step t ih =>
      obtain ⟨chart, names, ordered, complete⟩ := charts_flatMap ih 0
      have inner : ∀ path name, (path, name) ∈ chart ↔ path ≠ [] ∧ t.Mentions path name := by
        intro path name
        rw [complete]
        cases path with
        | nil => simp
        | cons i rest =>
            simp only [mentions_cons, Nat.zero_add, List.cons.injEq, ne_eq, reduceCtorEq,
              not_false_eq_true, true_and]
            constructor
            · rintro ⟨_, u, _, ⟨rfl, rfl⟩, takes, told⟩
              exact ⟨u, takes, told⟩
            · rintro ⟨u, takes, told⟩
              exact ⟨i, u, rest, ⟨rfl, rfl⟩, takes, told⟩
      by_cases unnamed : t.lifetime = []
      · refine ⟨chart, by simp [lifetimes_eq t, unnamed, names], ordered, ?_⟩
        rintro ⟨path, name⟩
        rw [inner, and_iff_right_iff_imp]
        rintro mentioned rfl
        obtain ⟨present, same⟩ := mentions_nil.mp mentioned
        exact present (same.symm.trans unnamed)
      · refine ⟨([], t.lifetime) :: chart, by simp [lifetimes_eq t, unnamed, names], ?_, ?_⟩
        · refine List.pairwise_cons.mpr ⟨?_, ordered⟩
          rintro ⟨path, name⟩ member
          obtain ⟨i, rest, rfl⟩ := List.exists_cons_of_ne_nil ((inner path name).mp member).1
          exact .nil
        · rintro ⟨path, name⟩
          rw [List.mem_cons, inner]
          cases path with
          | nil => simp only [mentions_nil, Prod.mk.injEq]; grind
          | cons i rest => simp

/-! ## The lifetime that a parameter brings -/

theorem firstInputLifetime?_eq (ts : List Ty) :
    firstInputLifetime? ts = ts.findSome? inputLifetime? := by
  induction ts with
  | nil => rfl
  | cons t rest ih =>
      rw [firstInputLifetime?, List.findSome?_cons]
      cases t.inputLifetime? with
      | none => exact ih
      | some name => rfl

theorem inputLifetime?_eq (t : Ty) : t.inputLifetime? =
    if t.isRef then if t.lifetime.isEmpty then none else some t.lifetime
    else t.tupleParts.findSome? inputLifetime? := by
  obtain ⟨shape, text, lifetime, elem, elems, params, result⟩ := t
  simp only [inputLifetime?, firstInputLifetime?_eq, isRef, tupleParts]
  by_cases tuple : shape = .tuple <;> simp [tuple]

theorem brings_nil : t.Brings [] name ↔ name ≠ [] ∧ t.isRef ∧ t.lifetime = name := by
  simp [Brings, at_nil]

theorem brings_cons {i : Nat} :
    t.Brings (i :: path) name ↔ ∃ u, t.tupleParts[i]? = some u ∧ u.Brings path name :=
  found_cons

theorem tupleParts_of_isRef (ref : t.isRef) : t.tupleParts = [] := by
  refine if_neg fun tuple => ?_
  rw [isRef, tuple] at ref
  exact absurd ref (by decide)

theorem tupleParts_subset (t : Ty) : t.tupleParts ⊆ t.parts := by
  unfold tupleParts
  split
  · intro u member
    simp [parts, member]
  · exact List.nil_subset _

/-- A type that is no reference brings what its leftmost tuple element with a lifetime brings. -/
theorem bringsFirst_of_findSome? (isntRef : ¬ t.isRef)
    (none : ∀ u ∈ t.tupleParts, u.inputLifetime? = none → ∀ path name, ¬ u.Brings path name)
    (some : ∀ u ∈ t.tupleParts, ∀ name, u.inputLifetime? = some name → u.BringsFirst name)
    (found : t.tupleParts.findSome? inputLifetime? = Option.some name) : t.BringsFirst name := by
  obtain ⟨before, u, after, split, here, nothing⟩ := List.findSome?_eq_some_iff.mp found
  have member : u ∈ t.tupleParts := by simp [split]
  obtain ⟨path, brings, least⟩ := some u member name here
  refine ⟨before.length :: path, brings_cons.mpr ⟨u, by simp [split], brings⟩, ?_⟩
  intro later other told
  cases later with
  | nil => exact absurd (brings_nil.mp told).2.1 isntRef
  | cons j rest =>
      obtain ⟨v, takes, more⟩ := brings_cons.mp told
      rw [split] at takes
      rcases Nat.lt_trichotomy before.length j with right | same | left
      · exact le_of_lt (List.Lex.rel right)
      · subst same
        obtain rfl : u = v := by simpa using takes
        rcases eq_or_lt_of_le (least rest other more) with rfl | below
        · exact le_rfl
        · exact le_of_lt (List.Lex.cons below)
      · rw [List.getElem?_append_left left] at takes
        have early := List.mem_of_getElem? takes
        exact absurd more (none v (by simp [split, early]) (nothing v early) rest other)

theorem inputLifetime?_spec (t : Ty) :
    (t.inputLifetime? = none → ∀ path name, ¬ t.Brings path name) ∧
      ∀ name, t.inputLifetime? = some name → t.BringsFirst name := by
  induction t using parts_induction with
  | step t ih =>
      have parts : ∀ u ∈ t.tupleParts, _ := fun u member => ih u (t.tupleParts_subset member)
      rw [inputLifetime?_eq]
      by_cases ref : t.isRef
      · have only : ∀ path name, t.Brings path name →
            path = [] ∧ name ≠ [] ∧ t.lifetime = name := by
          intro path name brings
          cases path with
          | nil => exact ⟨rfl, (brings_nil.mp brings).1, (brings_nil.mp brings).2.2⟩
          | cons i rest => simp [brings_cons, tupleParts_of_isRef ref] at brings
        rw [if_pos ref]
        by_cases unnamed : t.lifetime = []
        · refine ⟨fun _ path name brings => ?_, by simp [unnamed]⟩
          obtain ⟨_, present, same⟩ := only path name brings
          exact present (same.symm.trans unnamed)
        · refine ⟨by simp [unnamed], fun name found => ?_⟩
          obtain rfl : t.lifetime = name := by simpa [unnamed] using found
          refine ⟨[], brings_nil.mpr ⟨unnamed, ref, rfl⟩, fun later other brings => ?_⟩
          rw [(only later other brings).1]
      · rw [if_neg ref]
        refine ⟨fun nothing path name brings => ?_, fun name found => ?_⟩
        · cases path with
          | nil => exact ref (brings_nil.mp brings).2.1
          | cons i rest =>
              obtain ⟨u, takes, more⟩ := brings_cons.mp brings
              have member := List.mem_of_getElem? takes
              exact (parts u member).1 (List.findSome?_eq_none_iff.mp nothing u member) rest name more
        · exact bringsFirst_of_findSome? ref (fun u member => (parts u member).1)
            (fun u member => (parts u member).2) found

theorem bringsFirst_unique {other : Text} (first : t.BringsFirst name)
    (second : t.BringsFirst other) : name = other := by
  obtain ⟨path, ⟨present, u, stands, _, rfl⟩, least⟩ := first
  obtain ⟨again, ⟨there, v, found, _, rfl⟩, smallest⟩ := second
  have same : path = again :=
    le_antisymm (least _ _ ⟨there, v, found, ‹_›, rfl⟩) (smallest _ _ ⟨present, u, stands, ‹_›, rfl⟩)
  rw [at_unique stands (same ▸ found)]

theorem inputLifetime?_eq_some_iff : t.inputLifetime? = some name ↔ t.BringsFirst name := by
  refine ⟨t.inputLifetime?_spec.2 name, fun first => ?_⟩
  cases found : t.inputLifetime? with
  | none =>
      obtain ⟨path, brings, _⟩ := first
      exact absurd brings (t.inputLifetime?_spec.1 found path name)
  | some other => rw [bringsFirst_unique first (t.inputLifetime?_spec.2 other found)]

theorem inputLifetime?_eq_none_iff :
    t.inputLifetime? = none ↔ ∀ path name, ¬ t.Brings path name := by
  refine ⟨t.inputLifetime?_spec.1, fun nothing => ?_⟩
  rw [Option.eq_none_iff_forall_ne_some]
  intro name found
  obtain ⟨path, brings, _⟩ := t.inputLifetime?_spec.2 name found
  exact nothing path name brings

end Ty

end Mir

namespace Ownership

open Mir

/-! ## The bounds understood -/

theorem mem_distinct {seen names : List Text} {name : Text} :
    name ∈ distinct seen names ↔ name ∈ names ∧ name ∉ seen := by
  induction names generalizing seen with
  | nil => simp [distinct]
  | cons x rest ih =>
      rw [distinct]
      split
      case isTrue old =>
        rw [ih, List.mem_cons]
        grind
      case isFalse new =>
        rw [List.mem_cons, ih, List.mem_cons, List.mem_cons]
        grind

theorem nodup_distinct (seen names : List Text) : (distinct seen names).Nodup := by
  induction names generalizing seen with
  | nil => exact List.nodup_nil
  | cons x rest ih =>
      rw [distinct]
      split
      · exact ih seen
      · refine List.nodup_cons.mpr ⟨fun again => ?_, ih (x :: seen)⟩
        exact (mem_distinct.mp again).2 (List.mem_cons_self ..)

/-- Each distinct name of a chart stands there before all mentions of a later one. -/
theorem ordered_distinct {chart : List (List Nat × Text)}
    (ordered : chart.Pairwise fun a c => a.1 < c.1) (seen : List Text) :
    (distinct seen (chart.map Prod.snd)).Pairwise fun a c =>
      ∃ entry ∈ chart, entry.2 = a ∧ ∀ later ∈ chart, later.2 = c → entry.1 < later.1 := by
  induction chart generalizing seen with
  | nil => exact .nil
  | cons first rest ih =>
      obtain ⟨least, tail⟩ := List.pairwise_cons.mp ordered
      rw [List.map_cons, distinct]
      -- a name that is not that of the first entry keeps its place in the chart
      have widen : ∀ {seen : List Text}, first.2 ∈ seen →
          (distinct seen (rest.map Prod.snd)).Pairwise fun a c =>
            ∃ entry ∈ first :: rest, entry.2 = a ∧
              ∀ later ∈ first :: rest, later.2 = c → entry.1 < later.1 := by
        intro seen known
        refine (ih tail seen).imp_of_mem fun {a c} _ member ⟨entry, inside, named, before⟩ => ?_
        refine ⟨entry, List.mem_cons_of_mem _ inside, named, fun later there same => ?_⟩
        rcases List.mem_cons.mp there with rfl | more
        · exact absurd (same ▸ known) (mem_distinct.mp member).2
        · exact before later more same
      split
      case isTrue old => exact widen old
      case isFalse new =>
        refine List.pairwise_cons.mpr ⟨fun c member => ?_, widen (List.mem_cons_self ..)⟩
        refine ⟨first, List.mem_cons_self .., rfl, fun later there same => ?_⟩
        rcases List.mem_cons.mp there with rfl | more
        · exact absurd (same ▸ List.mem_cons_self ..) (mem_distinct.mp member).2
        · exact least later more

def SoleInput (b : Body) (input : Text) : Prop :=
  ∃ before t after, b.params = before ++ t :: after ∧ t.BringsFirst input ∧
    ∀ u ∈ before ++ after, ∀ path name, ¬ u.Brings path name

/-- Some bounds say that every other lifetime of a result outlives an input: each name once, in the
order in which the result mentions them first. -/
structure IsElision (result : Ty) (input : Text) (bounds : List Bound) : Prop where
  outlives : ∀ bound ∈ bounds, bound.outlives = input
  names : ∀ name, name ∈ bounds.map Bound.name ↔ name ≠ input ∧ ∃ path, result.Mentions path name
  nodup : (bounds.map Bound.name).Nodup
  ordered : (bounds.map Bound.name).Pairwise fun a c =>
    ∃ path, result.Mentions path a ∧ ∀ later, result.Mentions later c → path < later

theorem inputLifetimes_eq_singleton_iff {b : Body} {input : Text} :
    inputLifetimes b = [input] ↔ SoleInput b input := by
  simp only [inputLifetimes, List.filterMap_eq_cons_iff, List.filterMap_eq_nil_iff,
    Ty.inputLifetime?_eq_some_iff, Ty.inputLifetime?_eq_none_iff, SoleInput, List.mem_append]
  constructor
  · rintro ⟨before, t, after, split, left, first, right⟩
    exact ⟨before, t, after, split, first, fun u member => member.elim (left u) (right u)⟩
  · rintro ⟨before, t, after, split, first, others⟩
    exact ⟨before, t, after, split, fun u member => others u (.inl member), first,
      fun u member => others u (.inr member)⟩

theorem elidedBounds_of_soleInput {b : Body} {input : Text} (unwritten : b.lifetimeBounds = [])
    (sole : SoleInput b input) : IsElision b.result input (elidedBounds b) := by
  obtain ⟨chart, names, ordered, complete⟩ := b.result.lifetimes_charted
  have bounds : elidedBounds b =
      (distinct [input] b.result.lifetimes).map fun name => ⟨name, input⟩ := by
    simp [elidedBounds, unwritten, inputLifetimes_eq_singleton_iff.mpr sole]
  have named : (elidedBounds b).map Bound.name = distinct [input] b.result.lifetimes := by
    simp [bounds, Function.comp_def]
  refine ⟨?_, fun name => ?_, ?_, ?_⟩
  · intro bound member
    rw [bounds] at member
    obtain ⟨name, _, rfl⟩ := List.mem_map.mp member
    rfl
  · rw [named, mem_distinct, List.mem_singleton, and_comm, ← names, List.mem_map]
    refine and_congr_right fun _ => ⟨?_, ?_⟩
    · rintro ⟨entry, member, rfl⟩
      exact ⟨entry.1, (complete entry).mp member⟩
    · rintro ⟨path, told⟩
      exact ⟨(path, name), (complete _).mpr told, rfl⟩
  · exact named ▸ nodup_distinct _ _
  · rw [named, ← names]
    refine (ordered_distinct ordered [input]).imp fun ⟨entry, inside, same, before⟩ => ?_
    exact ⟨entry.1, same ▸ (complete entry).mp inside,
      fun later told => before (later, _) ((complete _).mpr told) rfl⟩

theorem elidedBounds_of_not_soleInput {b : Body}
    (other : b.lifetimeBounds ≠ [] ∨ ∀ input, ¬ SoleInput b input) : elidedBounds b = [] := by
  unfold elidedBounds
  split
  case isTrue unwritten =>
    split
    case h_1 input found =>
      refine absurd (inputLifetimes_eq_singleton_iff.mp found) (other.resolve_left ?_ input)
      simpa using unwritten
    case h_2 => rfl
  case isFalse => rfl

/-! ## The lifetimes reported -/

/-- The names of some bounds in order, each with its bound and once for it. -/
def namings (bounds : List Bound) : List (Text × Bound) :=
  bounds.flatMap fun bound => [bound.name, bound.outlives].dedup.map fun name => (name, bound)

theorem boundNames_eq (bound : Bound) : boundNames bound = [bound.name, bound.outlives].dedup := by
  unfold boundNames
  split
  case isTrue same => simp [same]
  case isFalse other => rw [List.Nodup.dedup (by simpa using Ne.symm other)]

theorem isDeclared_iff {b : Body} {name : Text} :
    isDeclared b name ↔ name = "static" ∨ name ∈ b.lifetimeParams := by
  simp [isDeclared, staticLifetime]

theorem lifetimeViolations_eq (b : Body) : lifetimeViolations b =
    ((namings (b.lifetimeBounds ++ elidedBounds b)).filter fun naming =>
      naming.1 ≠ ("static" : Text) ∧ naming.1 ∉ b.lifetimeParams).map fun naming =>
        Violation.undeclared naming.1 naming.2 := by
  have same : ∀ name : Text, (!isDeclared b name) =
      decide (name ≠ "static" ∧ name ∉ b.lifetimeParams) := by
    intro name
    rw [Bool.eq_iff_iff, Bool.not_eq_true', ← Bool.not_eq_true, isDeclared_iff, not_or,
      decide_eq_true_eq]
  rw [namings, List.filter_flatMap, List.map_flatMap, lifetimeViolations]
  refine List.flatMap_congr fun bound _ => ?_
  rw [List.filter_map, List.map_map, boundNames_eq]
  simp only [same, Function.comp_def]

/-- Lifetime checking is exact, for every body. No bounds are understood unless none are written and
exactly one parameter brings a lifetime; then they are the elision of the result. And a violation is
reported for each naming of a lifetime, in a bound written or understood, that is not `static` and
not declared, in the order of the bounds. -/
theorem lifetimes_exact (b : Body) :
    ((b.lifetimeBounds ≠ [] ∨ ∀ input, ¬ SoleInput b input) → elidedBounds b = []) ∧
    (∀ input, b.lifetimeBounds = [] → SoleInput b input →
      IsElision b.result input (elidedBounds b)) ∧
    lifetimeViolations b =
      ((namings (b.lifetimeBounds ++ elidedBounds b)).filter fun naming =>
        naming.1 ≠ ("static" : Text) ∧ naming.1 ∉ b.lifetimeParams).map fun naming =>
          Violation.undeclared naming.1 naming.2 :=
  ⟨elidedBounds_of_not_soleInput, fun _ => elidedBounds_of_soleInput, lifetimeViolations_eq b⟩

/-- A lifetime inside two tuples behind a reference without one, another inside an array where it
does not count, and a result that mentions both and a third one twice. -/
def entangled : Body where
  params :=
    [.tupleOf [.unit, .tupleOf [.refTo .unit false, .refWithLifetime "a" .unit false]],
      .arrayOf (.refWithLifetime "b" .unit false)]
  result :=
    .refWithLifetime "c" (.tupleOf [.refWithLifetime "a" .unit true,
      .functionOf [.refWithLifetime "b" .unit false] (.refWithLifetime "c" .unit false)]) false
  lifetimeParams := ["a", "c"]

theorem entangled_lifetimes :
    entangled.lifetimeBounds = [] ∧ SoleInput entangled "a" ∧
      IsElision entangled.result "a" (elidedBounds entangled) ∧
      elidedBounds entangled = [⟨"c", "a"⟩, ⟨"b", "a"⟩] ∧
      lifetimeViolations entangled = [.undeclared "b" ⟨"b", "a"⟩] :=
  have sole : SoleInput entangled "a" := inputLifetimes_eq_singleton_iff.mp (by decide)
  ⟨rfl, sole, (lifetimes_exact entangled).2.1 "a" rfl sole, by decide, by decide⟩

end Ownership

end BorrowChecker
