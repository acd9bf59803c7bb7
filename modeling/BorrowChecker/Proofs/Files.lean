import Mathlib
import BorrowChecker.File.Memory
import BorrowChecker.Proofs.Paths

/-!
What operations on files leave in a directory. Main statements: making a directory, or one that leads
to it, brings no file into it (`Memory.read_makeDirectory`), and a file that is written beside another
and takes its place changes what is read there and nowhere else in the directory
(`Memory.read_replaced`).
-/

namespace BorrowChecker

/-! ## Trees -/

namespace Tree

variable {t t' : Tree} {new : Option Tree} {x : Tree} {p q r : List Text}

def data? : Tree → Option Text
  | file data => some data
  | directory _ => none

/-- What stands at a place, without what is below it: nothing, a directory, or a file. -/
def look (t : Tree) (p : List Text) : Option (Option Text) := (t.find? p).map data?

def HasDirectory (t : Tree) (p : List Text) : Prop := t.look p = some none

theorem lookup_filter_ne (name other : Text) (entries : List (Text × Tree)) :
    (entries.filter fun e => e.1 != name).lookup other =
      if other = name then none else entries.lookup other := by
  induction entries with
  | nil => simp
  | cons e entries ih =>
    by_cases gone : e.1 = name
    · rw [List.filter_cons_of_neg (by simp [gone]), ih, List.lookup_cons]
      split
      · rfl
      · next other_ne => simp [gone, beq_false_of_ne other_ne]
    · rw [List.filter_cons_of_pos (by simp [gone]), List.lookup_cons, List.lookup_cons, ih]
      by_cases same : other = e.1
      · simp [same, gone]
      · simp [beq_false_of_ne same]

theorem lookup_map_replace (name other : Text) (t : Tree) (entries : List (Text × Tree)) :
    (entries.map fun e => if e.1 == name then (name, t) else e).lookup other =
      if other = name then (entries.lookup name).map fun _ => t else entries.lookup other := by
  induction entries with
  | nil => simp
  | cons e entries ih =>
    rw [List.map_cons, List.lookup_cons, List.lookup_cons, List.lookup_cons, ih]
    by_cases here : e.1 = name
    · by_cases same : other = name
      · simp [here, same]
      · simp [here, same, beq_false_of_ne same]
    · by_cases same : other = name
      · simp [here, same, beq_false_of_ne (Ne.symm here)]
      · simp [here, same]

theorem lookup_setEntry (name other : Text) (new : Option Tree) (entries : List (Text × Tree)) :
    (setEntry name new entries).lookup other = if other = name then new else entries.lookup other := by
  cases new with
  | none => exact lookup_filter_ne name other entries
  | some t =>
    simp only [setEntry]
    split
    case isTrue there =>
      obtain ⟨old, found⟩ := Option.isSome_iff_exists.mp there
      rw [lookup_map_replace, found, Option.map_some]
    case isFalse absent =>
      rw [Option.not_isSome_iff_eq_none] at absent
      rw [List.lookup_append]
      by_cases same : other = name
      · simp [same, absent]
      · simp [same, beq_false_of_ne same, List.lookup_cons]

theorem look_nil (t : Tree) : t.look [] = some t.data? := rfl

@[simp] theorem look_file (data name : Text) (rest : List Text) :
    (file data).look (name :: rest) = none := rfl

theorem look_cons (name : Text) (rest : List Text) (entries : List (Text × Tree)) :
    (directory entries).look (name :: rest) = (entries.lookup name).bind fun t => t.look rest := by
  show ((entries.lookup name).bind fun t => t.find? rest).map data? = _
  cases entries.lookup name <;> rfl

/-- Away from a place where a tree is put, nothing changes. -/
theorem look_set_elsewhere (apart : ¬ p <+: q) : (t.set new p).look q = t.look q := by
  fun_induction Tree.set new t p generalizing q with
  | case1 t => exact absurd (List.nil_prefix) apart
  | case2 data name rest => rfl
  | case3 entries name =>
    cases q with
    | nil => rfl
    | cons other rest =>
      have ne : other ≠ name := fun same => apart (by simp [same])
      rw [look_cons, look_cons, lookup_setEntry, if_neg ne]
  | case4 entries name next rest none => rfl
  | case5 entries name next rest t found ih =>
    cases q with
    | nil => rfl
    | cons other inner =>
      rw [look_cons, look_cons]
      by_cases same : other = name
      · subst same
        rw [lookup_setEntry, if_pos rfl, found]
        exact ih fun within => apart (by simpa using within)
      · rw [lookup_setEntry, if_neg same]

/-- At or below a place where a tree was put, there is what is in that tree or nothing. -/
theorem look_set_within (put : new.isSome ∨ p ≠ []) : (t.set new p).look (p ++ r) = none ∨
    (t.set new p).look (p ++ r) = new.bind fun x => x.look r := by
  fun_induction Tree.set new t p with
  | case1 t =>
    obtain ⟨x, rfl⟩ := Option.isSome_iff_exists.mp (put.resolve_right (by simp))
    exact .inr rfl
  | case2 data name rest => exact .inl rfl
  | case3 entries name =>
    right
    rw [List.singleton_append, look_cons, lookup_setEntry, if_pos rfl]
  | case4 entries name next rest none =>
    left
    rw [List.cons_append, look_cons, none, Option.bind_none]
  | case5 entries name next rest t there ih =>
    rw [List.cons_append, look_cons, lookup_setEntry, if_pos rfl, Option.bind_some]
    exact ih (.inr (by simp))

theorem look_of_look_set {v : Option Text} (found : (t.set (some x) p).look (p ++ r) = some v) :
    x.look r = some v := by
  have put : (some x).isSome := rfl
  rcases look_set_within (t := t) (p := p) (r := r) (.inl put) with nothing | inside
  · cases nothing.symm.trans found
  · exact inside.symm.trans found

theorem look_set_none (some : p ≠ []) : (t.set none p).look (p ++ r) = none := by
  rcases look_set_within (.inr some) with nothing | inside
  · exact nothing
  · exact inside

theorem hasDirectory_of_append {e : Text} (there : t.look (p ++ e :: r) ≠ none) : t.HasDirectory p := by
  induction p generalizing t with
  | nil =>
    cases t with
    | file data => simp at there
    | directory entries => rfl
  | cons name rest ih =>
    cases t with
    | file data => simp at there
    | directory entries =>
      rw [List.cons_append, look_cons] at there
      rw [HasDirectory, look_cons]
      cases found : entries.lookup name with
      | none => simp [found] at there
      | some t =>
        rw [found] at there
        exact ih there

theorem hasDirectory_dropLast (there : t.HasDirectory p) : t.HasDirectory p.dropLast := by
  rcases List.eq_nil_or_concat p with rfl | ⟨p, name, rfl⟩
  · exact there
  · rw [List.concat_eq_append] at there
    rw [List.concat_eq_append, List.dropLast_concat]
    have below : t.look (p ++ name :: []) ≠ none := by
      rw [there]
      simp
    exact hasDirectory_of_append below

/-! ### Following paths -/

def step (place : List Text) (e : Text) : List Text :=
  if e.isEmpty ∨ e = "." then place else if e = ".." then place.dropLast else place ++ [e]

theorem step_down {place : List Text} {e : Text} (element : Path.IsElement e) (down : e ≠ Path.upward) :
    step place e = place ++ [e] := by
  simp [step, element.ne_nil, element.ne_point, down]

theorem step_upward (place : List Text) : step place Path.upward = place.dropLast := rfl

variable {place start : List Text} {e : Text} {elements rest : List Text}

@[simp] theorem follow_nil : t.follow place [] = .ok place := rfl

theorem follow_cons_iff : t.follow place (e :: rest) = .ok q ↔
    t.HasDirectory place ∧ e.length ≤ longestName ∧ t.follow (step place e) rest = .ok q := by
  rw [follow, HasDirectory, look]
  cases t.find? place with
  | none => simp
  | some found =>
    cases found with
    | file data => simp [data?]
    | directory entries =>
      by_cases long : longestName < e.length
      · simp [long, data?]
      · simp only [if_neg long, Option.map_some, data?, true_and, step, Nat.not_lt.mp long]
        split
        · rfl
        · split <;> rfl

theorem follow_append_iff : t.follow place (elements ++ rest) = .ok q ↔
    ∃ p, t.follow place elements = .ok p ∧ t.follow p rest = .ok q := by
  induction elements generalizing place with
  | nil => simp
  | cons e elements ih =>
    simp only [List.cons_append, follow_cons_iff, ih]
    constructor
    · rintro ⟨there, short, p, first, second⟩
      exact ⟨p, ⟨there, short, first⟩, second⟩
    · rintro ⟨p, ⟨there, short, first⟩, second⟩
      exact ⟨there, short, p, first, second⟩

/-- Where a path leads, if it leads anywhere, does not depend on the tree. -/
theorem follow_eq_foldl (followed : t.follow place elements = .ok q) :
    q = elements.foldl step place := by
  induction elements generalizing place with
  | nil => simpa using followed.symm
  | cons e elements ih => exact ih (follow_cons_iff.mp followed).2.2

theorem follow_mono (kept : ∀ p, t.HasDirectory p → t'.HasDirectory p)
    (followed : t.follow place elements = .ok q) : t'.follow place elements = .ok q := by
  induction elements generalizing place with
  | nil => simpa using followed
  | cons e elements ih =>
    obtain ⟨there, short, later⟩ := follow_cons_iff.mp followed
    exact follow_cons_iff.mpr ⟨kept _ there, short, ih later⟩

theorem hasDirectory_of_set_file {data : Text} (there : (t.set (some (file data)) p).HasDirectory q) :
    t.HasDirectory q := by
  by_cases within : p <+: q
  · obtain ⟨r, rfl⟩ := within
    have inside := look_of_look_set there
    cases r <;> simp [look_nil, data?] at inside
  · rwa [HasDirectory, look_set_elsewhere within] at there

theorem look_of_set_none {v : Option Text} (there : (t.set none p).look q = some v) :
    t.look q = some v := by
  by_cases within : p <+: q
  · obtain ⟨r, rfl⟩ := within
    cases p with
    | nil => exact there
    | cons name p =>
      rw [look_set_none (by simp)] at there
      exact absurd there (by simp)
  · rwa [look_set_elsewhere within] at there

end Tree

/-! ## Machines -/

namespace Memory

open BorrowChecker.Path

variable {s s₁ s₂ : Memory} {rooted : Bool} {shelf : List Text} {e name scratch path data d : Text}

theorem read_eq_ok_iff : s.read path = .ok d ↔
    ∃ q, s.resolve path = .ok q ∧ s.tree.look q = some (some d) := by
  rw [read, find]
  cases s.resolve path with
  | error cause => simp [bind, Except.bind]
  | ok q =>
    simp only [bind, Except.bind, Tree.look]
    cases found : s.tree.find? q with
    | none => simp [found, throw, throwThe, MonadExceptOf.throw]
    | some t => cases t <;> simp [found, Tree.data?, pure, Except.pure]

def origin (s : Memory) (rooted : Bool) : List Text := if rooted then [] else s.place

def pieces (rooted : Bool) (elements : List Text) : List Text :=
  (if rooted then [[]] else []) ++ elements

theorem resolve_written_iff {elements q : List Text} (each : ∀ e ∈ elements, IsElement e)
    (some : elements ≠ []) : s.resolve (written rooted elements) = .ok q ↔
      0 ∉ written rooted elements ∧
        s.tree.follow (s.origin rooted) (pieces rooted elements) = .ok q := by
  have there : written rooted elements ≠ [] := written_ne_nil each some
  rw [resolve, Tree.resolve, if_neg (by simpa using there), isRooted_written each some,
    split_written each some]
  by_cases zero : 0 ∈ written rooted elements
  · simp [zero]
  · simp [zero, origin, pieces]

def placeOf (s : Memory) (rooted : Bool) (shelf : List Text) : List Text :=
  (pieces rooted shelf).foldl Tree.step (s.origin rooted)

theorem resolve_entry {q : List Text} (reduced : Reduced rooted shelf) (element : IsElement e)
    (down : e ≠ upward) (resolved : s.resolve (written rooted (shelf ++ [e])) = .ok q) :
    q = s.placeOf rooted shelf ++ [e] := by
  have followed := ((resolve_written_iff (reduced.concat element down).each (by simp)).mp resolved).2
  have same := Tree.follow_eq_foldl followed
  rwa [show pieces rooted (shelf ++ [e]) = pieces rooted shelf ++ [e] by simp [pieces],
    List.foldl_append, List.foldl_cons, List.foldl_nil, Tree.step_down element down] at same

/-- With fewer directories a path leads nowhere else. -/
theorem resolve_mono {q : List Text} (kept : ∀ p, s₁.tree.HasDirectory p → s.tree.HasDirectory p)
    (place : s₁.place = s.place) (resolved : s₁.resolve path = .ok q) : s.resolve path = .ok q := by
  rw [resolve, Tree.resolve] at resolved ⊢
  rw [place] at resolved
  by_cases nothing : path.isEmpty
  · rw [if_pos nothing] at resolved
    cases resolved
  · rw [if_neg nothing] at resolved ⊢
    by_cases zero : path.contains 0
    · rw [if_pos zero] at resolved
      cases resolved
    · rw [if_neg zero] at resolved ⊢
      exact Tree.follow_mono kept resolved

theorem read_of_set_none {q : List Text} (read : (s.set q none).read path = .ok d) :
    s.read path = .ok d := by
  obtain ⟨p, resolved, found⟩ := read_eq_ok_iff.mp read
  have kept : ∀ p, (s.set q none).tree.HasDirectory p → s.tree.HasDirectory p :=
    fun _ => Tree.look_of_set_none
  exact read_eq_ok_iff.mpr ⟨p, resolve_mono kept rfl resolved, Tree.look_of_set_none found⟩

/-- A file put somewhere is the only one that may be read where it was not read before. -/
theorem read_of_set_file {q p : List Text}
    (resolved : (s.set q (some (.file data))).resolve path = .ok p)
    (read : (s.set q (some (.file data))).read path = .ok d) :
    q <+: p ∧ d = data ∨ s.read path = .ok d := by
  obtain ⟨p', resolved', found⟩ := read_eq_ok_iff.mp read
  obtain rfl := Except.ok.inj (resolved.symm.trans resolved')
  by_cases within : q <+: p
  · left
    obtain ⟨r, rfl⟩ := within
    have inside := Tree.look_of_look_set found
    cases r with
    | nil => exact ⟨by simp, by simpa [Tree.look_nil, Tree.data?] using inside.symm⟩
    | cons name r => simp at inside
  · right
    have kept : ∀ p, (s.set q (some (.file data))).tree.HasDirectory p → s.tree.HasDirectory p :=
      fun _ => Tree.hasDirectory_of_set_file
    refine read_eq_ok_iff.mpr ⟨p, resolve_mono kept rfl resolved, ?_⟩
    rwa [set, Tree.look_set_elsewhere within] at found

theorem foldl_step_down {elements place : List Text}
    (down : ∀ e ∈ elements, IsElement e ∧ e ≠ upward) :
    elements.foldl Tree.step place = place ++ elements := by
  induction elements generalizing place with
  | nil => simp
  | cons e elements ih =>
    obtain ⟨element, other⟩ := down e (by simp)
    rw [List.foldl_cons, Tree.step_down element other, ih fun e' member => down e' (by simp [member]),
      List.append_assoc, List.singleton_append]

/-- A directory that is made stands where its path leads, and nothing stood there before. -/
theorem makeDirectory_cases {lead : List Text} (each : ∀ e ∈ lead, IsElement e) (some : lead ≠ [])
    (made : s.makeDirectory (written rooted lead) = .ok s₁) :
    ∃ q, s.resolve (written rooted lead) = .ok q ∧ s.tree.look q = none ∧
      s₁ = s.set q (Option.some (.directory [])) := by
  have there : written rooted lead ≠ [] := written_ne_nil each some
  simp only [makeDirectory, trim_written each some, List.isEmpty_iff, if_neg there] at made
  split at made
  · cases made
  · split at made
    · cases made
    · next q resolved _ absent =>
      exact ⟨q, resolved, by simp [Tree.look, absent], (Except.ok.inj made).symm⟩

/-- After a directory is made that leads to another, there are no files in that. -/
theorem read_makeDirectory {lead rest : List Text} (some : lead ≠ [])
    (reduced : Reduced rooted (lead ++ rest)) (element : IsElement e) (down : e ≠ upward)
    (made : s.makeDirectory (written rooted lead) = .ok s₁) :
    s₁.read (written rooted (lead ++ rest ++ [e])) ≠ .ok d := by
  intro read
  obtain ⟨place, resolved, absent, rfl⟩ := makeDirectory_cases reduced.left.each some made
  obtain ⟨zero, followed⟩ := (resolve_written_iff reduced.left.each some).mp resolved
  obtain ⟨q, resolvedAfter, found⟩ := read_eq_ok_iff.mp read
  have followedAfter := ((resolve_written_iff (reduced.concat element down).each (by simp)).mp
    resolvedAfter).2
  have split : pieces rooted (lead ++ rest ++ [e]) = pieces rooted lead ++ (rest ++ [e]) := by
    simp [pieces]
  rw [split, Tree.follow_append_iff] at followedAfter
  obtain ⟨place', first, second⟩ := followedAfter
  obtain rfl : place = place' :=
    (Tree.follow_eq_foldl followed).trans (Tree.follow_eq_foldl first).symm
  by_cases up : upward ∈ rest
  · -- then the directory lies upwards, on the way to one that is there
    obtain ⟨before, after, rfl⟩ := List.append_of_mem up
    obtain ⟨unrooted, ups⟩ := reduced.up (lead ++ before) after (by simp)
    obtain ⟨init, last, rfl⟩ := (List.eq_nil_or_concat lead).resolve_left some
    rw [List.concat_eq_append] at ups followed
    obtain rfl : last = upward := ups last (by simp)
    rw [pieces, ← List.append_assoc, Tree.follow_append_iff] at followed
    obtain ⟨p, -, last⟩ := followed
    obtain ⟨there, -, stepped⟩ := Tree.follow_cons_iff.mp last
    rw [Tree.step_upward, Tree.follow_nil] at stepped
    obtain rfl := Except.ok.inj stepped
    rw [Tree.hasDirectory_dropLast there] at absent
    cases absent
  · -- then the file lies below the directory, which is empty
    have inside : ∀ e' ∈ rest ++ [e], IsElement e' ∧ e' ≠ upward := by
      intro e' member
      rcases List.mem_append.mp member with member | member
      · exact ⟨reduced.each e' (List.mem_append_right _ member), fun same => up (same ▸ member)⟩
      · rw [List.mem_singleton.mp member]
        exact ⟨element, down⟩
    have below := Tree.follow_eq_foldl second
    rw [foldl_step_down inside] at below
    rw [below] at found
    have empty := Tree.look_of_look_set found
    cases rest <;> simp [Tree.look_cons] at empty

theorem write_cases (wrote : s.write path data = .ok s₁) :
    ∃ q, s.resolve path = .ok q ∧ s₁ = s.set q (some (.file data)) := by
  rw [write] at wrote
  split at wrote
  · cases wrote
  · next q resolved =>
    split at wrote
    · cases wrote
    · exact ⟨q, resolved, (Except.ok.inj wrote).symm⟩

theorem rename_cases {source target : Text} (moved : s.rename source target = .ok s₁) :
    ∃ start stop t, s.resolve source = .ok start ∧ s.resolve target = .ok stop ∧
      s.tree.find? start = some t ∧ s₁ = (s.set start none).set stop (some t) := by
  rw [rename] at moved
  split at moved
  · cases moved
  · cases moved
  · next start stop fromStart toStop =>
    split at moved
    · cases moved
    · cases moved
    · next t found _ =>
      split at moved
      · cases moved
      · exact ⟨start, stop, t, fromStart, toStop, found, (Except.ok.inj moved).symm⟩

theorem read_of_remove (removed : s.remove scratch = .ok s₁) (read : s₁.read path = .ok d) :
    s.read path = .ok d := by
  rw [remove] at removed
  split at removed
  · rwa [Except.ok.inj removed]
  · cases removed
  · cases removed
  · rw [← Except.ok.inj removed] at read
    exact read_of_set_none read

section Replacing

variable (reduced : Reduced rooted shelf) (element : IsElement e) (down : e ≠ upward)
  (nameElement : IsElement name) (nameDown : name ≠ upward) (scratchElement : IsElement scratch)
  (scratchDown : scratch ≠ upward) (apart : e ≠ scratch)
  (wrote : s.write (written rooted (shelf ++ [scratch])) data = .ok s₁)

theorem eq_of_entry_within {place : List Text} (within : place ++ [name] <+: place ++ [e]) :
    e = name := by
  obtain ⟨rest, same⟩ := within
  rw [List.append_assoc, List.append_cancel_left_eq] at same
  simp at same
  exact same.1.symm

include reduced element down scratchElement scratchDown apart wrote

/-- Writing a file leaves the others of its directory as they are. -/
theorem read_written_beside (read : s₁.read (written rooted (shelf ++ [e])) = .ok d) :
    s.read (written rooted (shelf ++ [e])) = .ok d := by
  obtain ⟨q, resolved, rfl⟩ := write_cases wrote
  obtain rfl := resolve_entry reduced scratchElement scratchDown resolved
  obtain ⟨p, resolvedAfter, -⟩ := read_eq_ok_iff.mp read
  obtain rfl := resolve_entry reduced element down resolvedAfter
  rcases read_of_set_file resolvedAfter read with ⟨within, -⟩ | before
  · exact absurd (eq_of_entry_within within) apart
  · exact before

include nameElement nameDown

/-- A file written beside another that then takes its place is read there, and all else in the directory
is as before. -/
theorem read_replaced
    (moved : s₁.rename (written rooted (shelf ++ [scratch])) (written rooted (shelf ++ [name])) = .ok s₂)
    (read : s₂.read (written rooted (shelf ++ [e])) = .ok d) :
    e = name ∧ d = data ∨ s.read (written rooted (shelf ++ [e])) = .ok d := by
  have beside := fun read => read_written_beside reduced element down scratchElement scratchDown apart
    wrote (d := d) read
  obtain ⟨q, resolved, rfl⟩ := write_cases wrote
  obtain rfl := resolve_entry reduced scratchElement scratchDown resolved
  obtain ⟨start, stop, t, fromStart, toStop, found, rfl⟩ := rename_cases moved
  obtain rfl := resolve_entry reduced scratchElement scratchDown fromStart
  obtain rfl := resolve_entry reduced nameElement nameDown toStop
  -- what is moved is the file just written
  obtain rfl : t = .file data := by
    have there : (s.set (s.placeOf rooted shelf ++ [scratch]) (some (.file data))).tree.look
        (s.placeOf rooted shelf ++ [scratch] ++ []) = some t.data? := by
      rw [List.append_nil]
      exact congrArg (Option.map Tree.data?) found
    have same : some data = t.data? := Option.some.inj (Tree.look_of_look_set there)
    cases t with
    | file other => rw [Option.some.inj same]
    | directory entries => cases same
  obtain ⟨p, resolvedAfter, -⟩ := read_eq_ok_iff.mp read
  obtain rfl := resolve_entry reduced element down resolvedAfter
  rcases read_of_set_file resolvedAfter read with ⟨within, same⟩ | before
  · exact .inl ⟨eq_of_entry_within within, same⟩
  · exact .inr (beside (read_of_set_none before))

end Replacing

end Memory

end BorrowChecker
