import Mathlib
import BorrowChecker.File.Memory
import BorrowChecker.Proofs.Conduct
import BorrowChecker.Proofs.Lossless
import BorrowChecker.Proofs.Paths
import BorrowChecker.Proofs.Wording

/-!
The diagnostics of a file account for every body of its module exactly once. A body is sound when it
is there, is the first with its name and has no flaw. Main statement: a run without a store that
nobody cancels reports every body that is not sound, then what is found in the sound ones, each in
the words that belong to it, and cuts this off at its limit without changing whether there are errors
(`Run.checkFile_accounts`).
-/

namespace BorrowChecker

open Mir Ownership Session

/-! ## Bags -/

namespace Bag

def allowed (limit : Int) (count : Nat) : Nat := if 0 < limit then min limit.toNat count else count

/-- A bag that was given some diagnostics and nothing else: it holds the first of them and has counted
the others. -/
structure Keeps (b : Bag) (ds : List Diagnostic) : Prop where
  items : b.items = ds.take (allowed b.limit ds.length)
  dropped : b.dropped = ds.length - allowed b.limit ds.length
  droppedError : b.droppedError = (ds.drop (allowed b.limit ds.length)).any Diagnostic.isError

theorem allowed_le (limit : Int) (count : Nat) : allowed limit count ≤ count := by
  unfold allowed
  split <;> omega

theorem Keeps.length {b : Bag} {ds : List Diagnostic} (keeps : b.Keeps ds) :
    b.items.length = allowed b.limit ds.length := by
  rw [keeps.items, List.length_take, Nat.min_eq_left (allowed_le _ _)]

theorem keeps_empty (limit : Int) : Keeps { limit } [] := ⟨by simp, by simp, by simp⟩

theorem limit_add (b : Bag) (d : Diagnostic) : (b.add d).limit = b.limit := by
  unfold add
  split <;> rfl

theorem Keeps.add {b : Bag} {ds : List Diagnostic} (keeps : b.Keeps ds) (d : Diagnostic) :
    (b.add d).Keeps (ds ++ [d]) := by
  have length := keeps.length
  have bound := allowed_le b.limit ds.length
  by_cases full : b.isFull
  · -- a full bag lets no more through than before
    have same : allowed b.limit (ds ++ [d]).length = allowed b.limit ds.length := by
      simp only [isFull, Bool.and_eq_true, decide_eq_true_eq] at full
      simp only [allowed, if_pos full.1, List.length_append, List.length_singleton] at length bound ⊢
      omega
    simp only [Bag.add, if_pos full]
    constructor
    · simp only [same]
      rw [List.take_append_of_le_length bound, keeps.items]
    · simp only [same]
      rw [keeps.dropped, List.length_append, List.length_singleton]
      omega
    · simp only [same]
      rw [List.drop_append_of_le_length bound]
      simp [keeps.droppedError]
  · -- a bag with room has let everything through so far
    have all : allowed b.limit ds.length = ds.length ∧
        allowed b.limit (ds ++ [d]).length = (ds ++ [d]).length := by
      simp only [isFull, Bool.and_eq_true, decide_eq_true_eq, not_and] at full
      by_cases positive : 0 < b.limit
      · have room := full positive
        simp only [allowed, if_pos positive, List.length_append, List.length_singleton] at length ⊢
        omega
      · simp only [allowed, if_neg positive, and_self]
    simp only [Bag.add, if_neg full]
    have dropped := keeps.dropped
    have droppedError := keeps.droppedError
    simp only [all.1, Nat.sub_self, List.drop_length, List.any_nil] at dropped droppedError
    constructor
    · simp only [all.2, List.take_length, keeps.items, all.1]
    · simp only [all.2, dropped, Nat.sub_self]
    · simp only [all.2, List.drop_length, droppedError, List.any_nil]

theorem Keeps.addAll {b : Bag} {ds : List Diagnostic} (keeps : b.Keeps ds)
    (more : List Diagnostic) : (b.addAll more).Keeps (ds ++ more) := by
  induction more generalizing b ds with
  | nil => simpa [Bag.addAll] using keeps
  | cons d more ih => simpa [Bag.addAll] using ih (keeps.add d)

theorem limit_addAll (b : Bag) (ds : List Diagnostic) : (b.addAll ds).limit = b.limit := by
  induction ds generalizing b with
  | nil => rfl
  | cons d ds ih => exact (ih (b.add d)).trans (limit_add b d)

/-- Turning diagnostics away does not change whether there was an error among them. -/
theorem Keeps.hasErrors {b : Bag} {ds : List Diagnostic} (keeps : b.Keeps ds) :
    b.hasErrors = ds.any Diagnostic.isError := by
  rw [Bag.hasErrors, keeps.droppedError, keeps.items, ← List.any_append, List.take_append_drop]

end Bag

/-! ## Flaws, line by line -/

theorem Text.newline_not_mem_ofInt (v : Int) : 10 ∉ Text.ofInt v := by
  have digits : ∀ n, 10 ∉ Text.ofNat n := by
    intro n member
    exact absurd ((Text.isDigits_ofNat n).digits 10 member) (by decide)
  cases v with
  | ofNat n => exact digits n
  | negSucc n => simpa [Text.ofInt] using digits (n + 1)

/-- What is said of a flaw stands on one line. -/
theorem Mir.Flaw.newline_not_mem_message (flaw : Flaw) : 10 ∉ flaw.message := by
  have integer := Text.newline_not_mem_ofInt
  have number : ∀ n : Nat, 10 ∉ Text.ofNat n := fun n => integer n
  have spot : ∀ spot : Spot, 10 ∉ spot.print := by
    intro spot
    cases spot <;> simp [Spot.print, BlockId.print, integer, number] <;> decide
  cases flaw <;> simp [message, BlockId.print, LocalId.print, spot, integer, number] <;> decide

theorem Mir.Flaw.lines_messages {flaws : List Flaw} (some : flaws ≠ []) :
    (Flaw.messages flaws).splitOnByte 10 = flaws.map Flaw.message := by
  refine Text.splitOnByte_joined (by simpa using some) ?_
  intro line member
  obtain ⟨flaw, _, rfl⟩ := List.mem_map.mp member
  exact flaw.newline_not_mem_message

/-! ## Sound bodies -/

namespace Mir.Module

def namesOf (bodies : List (Option Body)) : List Text := bodies.filterMap (Option.map Body.name)

/-- The body with a number, if it is sound: it is there, no earlier one has its name, and it has no
flaw. -/
def soundAt? (m : Module) (i : Nat) : Option Body :=
  m.bodies[i]?.join.filter fun b => b.name ∉ namesOf (m.bodies.take i) ∧ b.flaws = []

def refusalAt (m : Module) (i : Nat) : Rejected :=
  match m.bodies[i]?.join with
  | none => ⟨"#" ++ Text.ofNat i, .absent⟩
  | some b =>
    if b.name ∈ namesOf (m.bodies.take i) then ⟨b.name, .definedTwice⟩
    else ⟨b.name, .malformed b.flaws⟩

def sound (m : Module) : List Body := (List.range m.bodies.length).filterMap m.soundAt?

def unsound (m : Module) : List Nat :=
  (List.range m.bodies.length).filter fun i => m.soundAt? i = none

/-- What is to be told about a module: every body that is not sound, then what is found in the sound
ones. -/
def account (m : Module) : List Diagnostic :=
  m.unsound.map (fun i => (m.refusalAt i).diagnostic) ++
    m.sound.flatMap fun b => (check b).map (Violation.diagnostic b)

def found (m : Module) : List (Body × Violation) :=
  m.sound.flatMap fun b => (check b).map (Prod.mk b)

def refusal (name : Text) (lines : List Text) : Diagnostic where
  severity := ⟨2⟩
  code := ⟨200⟩
  message := "malformed body `" ++ name ++ "`"
  primary := ⟨name, 0, 0, false⟩
  notes := lines.map (Note.mk ⟨name, 0, 0, false⟩)

/-- What is said of the body with a number that is not sound: it is absent and goes by its number, or
an earlier one has its name, or it has flaws, which are noted one by one. -/
inductive Refuses (m : Module) (i : Nat) : Diagnostic → Prop where
  | absent {digits : Text} (missing : m.bodies[i]? = some none) (counts : Text.Counts 1 i digits) :
      Refuses m i (refusal ("#" ++ digits) ["missing body"])
  | repeated {b : Body} (there : m.bodies[i]? = some (some b))
      (earlier : b.name ∈ namesOf (m.bodies.take i)) :
      Refuses m i (refusal b.name ["defined twice"])
  | malformed {b : Body} (there : m.bodies[i]? = some (some b))
      (first : b.name ∉ namesOf (m.bodies.take i)) (flawed : b.flaws ≠ []) :
      Refuses m i (refusal b.name (b.flaws.map Flaw.message))

def ruling (m : Module) (i : Nat) : Except Rejected Body :=
  (m.soundAt? i).elim (.error (m.refusalAt i)) .ok

variable {m : Module} {before rest : List (Option Body)} {seen : List Text} {b : Body}

theorem namesOf_concat (before : List (Option Body)) (o : Option Body) :
    namesOf (before ++ [o]) = namesOf before ++ (o.map Body.name).toList := by
  cases o <;> simp [namesOf]

theorem soundAt?_absent (split : m.bodies = before ++ none :: rest) :
    m.soundAt? before.length = none := by
  simp [soundAt?, split]

theorem soundAt?_present (split : m.bodies = before ++ some b :: rest) :
    m.soundAt? before.length =
      if b.name ∉ namesOf before ∧ b.flaws = [] then some b else none := by
  simp [soundAt?, split, Option.filter]

theorem refusalAt_absent (split : m.bodies = before ++ none :: rest) :
    m.refusalAt before.length = ⟨"#" ++ Text.ofNat before.length, .absent⟩ := by
  simp [refusalAt, split]

theorem refusalAt_present (split : m.bodies = before ++ some b :: rest) :
    m.refusalAt before.length = if b.name ∈ namesOf before then ⟨b.name, .definedTwice⟩
      else ⟨b.name, .malformed b.flaws⟩ := by
  simp [refusalAt, split]

/-- Judging bodies after others rules on each by its number. -/
theorem judge_eq (before rest : List (Option Body)) (split : m.bodies = before ++ rest)
    (known : ∀ x, x ∈ seen ↔ x ∈ namesOf before) :
    judge seen before.length rest = (List.range' before.length rest.length).map m.ruling := by
  induction rest generalizing before seen with
  | nil => rfl
  | cons o rest ih =>
    have seenNext : ∀ x, x ∈ (o.map Body.name).toList ++ seen ↔ x ∈ namesOf (before ++ [o]) := by
      simp [namesOf_concat, known, or_comm]
    have next := ih (before ++ [o]) (by simp [split]) seenNext
    rw [List.length_append, List.length_singleton] at next
    rw [List.length_cons, List.range'_succ, List.map_cons, ← next]
    cases o with
    | none => simp [judge, ruling, soundAt?_absent split, refusalAt_absent split]
    | some b =>
      by_cases twice : b.name ∈ namesOf before
      · simp [judge, ruling, soundAt?_present split, refusalAt_present split, known, twice]
      · by_cases flawless : b.flaws = [] <;>
          simp [judge, ruling, soundAt?_present split, refusalAt_present split, Body.isValid, known,
            twice, flawless]

theorem judge_bodies (m : Module) :
    judge [] 0 m.bodies = (List.range m.bodies.length).map m.ruling := by
  rw [List.range_eq_range']
  exact judge_eq [] m.bodies (by simp) (by simp [namesOf])

theorem screen_fit (m : Module) : (screen m).fit = m.sound := by
  simp only [screen, sound, judge_bodies, List.filterMap_map]
  congr 1
  funext i
  rw [Function.comp_apply, ruling]
  cases m.soundAt? i <;> rfl

theorem screen_rejected (m : Module) : (screen m).rejected = m.unsound.map m.refusalAt := by
  simp only [screen, unsound, judge_bodies, List.filterMap_map]
  rw [← List.filterMap_eq_map, List.filterMap_filter]
  congr 1
  funext i
  rw [Function.comp_apply, ruling]
  cases m.soundAt? i <;> simp

theorem sound_split (member : b ∈ m.sound) : ∃ before rest, m.bodies = before ++ some b :: rest ∧
    b.name ∉ namesOf before ∧ b.flaws = [] := by
  obtain ⟨i, _, at_i⟩ := List.mem_filterMap.mp member
  simp only [soundAt?, Option.filter_eq_some_iff, Option.join_eq_some_iff, decide_eq_true_eq] at at_i
  obtain ⟨there, first, flawless⟩ := at_i
  refine ⟨m.bodies.take i, m.bodies.drop (i + 1), ?_, first, flawless⟩
  obtain ⟨bound, same⟩ := List.getElem?_eq_some_iff.mp there
  rw [← same, List.getElem_cons_drop, List.take_append_drop]

/-- The name of a sound body leads back to it. -/
theorem body?_of_sound (member : b ∈ m.sound) : m.body? b.name = some b := by
  obtain ⟨before, rest, split, first, -⟩ := sound_split member
  rw [body?, split, List.findSome?_append, List.findSome?_eq_none_iff.mpr]
  · simp
  · rintro (_ | c) there
    · rfl
    · refine if_neg fun same => first ?_
      rw [← same]
      exact List.mem_filterMap.mpr ⟨some c, there, rfl⟩

theorem diagnostics_sound (m : Module) : diagnostics m (checkAll m.sound) =
    m.sound.flatMap fun b => (check b).map (Violation.diagnostic b) := by
  have each : ∀ bodies : List Body, (∀ b ∈ bodies, m.body? b.name = some b) →
      diagnostics m (checkAll bodies) =
        bodies.flatMap fun b => (check b).map (Violation.diagnostic b) := by
    intro bodies known
    induction bodies with
    | nil => rfl
    | cons b bodies ih =>
      have rest := ih fun c member => known c (by simp [member])
      simp only [checkAll, diagnostics] at rest ⊢
      by_cases clean : (check b).isEmpty
      · simp [rest, List.isEmpty_iff.mp clean]
      · simp [clean, rest, known b (by simp)]
  exact each m.sound fun b => body?_of_sound

/-- A module is without flaws exactly when all its bodies are sound. -/
theorem flawsAfter_eq_nil_iff (before rest : List (Option Body)) (split : m.bodies = before ++ rest)
    (known : ∀ x, x ∈ seen ↔ x ∈ namesOf before) :
    flawsAfter seen rest = [] ↔
      ∀ i ∈ List.range' before.length rest.length, m.soundAt? i ≠ none := by
  induction rest generalizing before seen with
  | nil => simp [flawsAfter]
  | cons o rest ih =>
    have seenNext : ∀ x, x ∈ (o.map Body.name).toList ++ seen ↔ x ∈ namesOf (before ++ [o]) := by
      simp [namesOf_concat, known, or_comm]
    have next := ih (before ++ [o]) (by simp [split]) seenNext
    rw [List.length_append, List.length_singleton] at next
    rw [List.length_cons, List.range'_succ, List.forall_mem_cons, ← next]
    cases o with
    | none => simp [flawsAfter, soundAt?_absent split]
    | some b => simp [flawsAfter, soundAt?_present split, known, and_assoc]

theorem flaws_eq_nil_iff (m : Module) : m.flaws = [] ↔ m.unsound = [] := by
  rw [flaws, flawsAfter_eq_nil_iff (m := m) [] m.bodies (by simp) (by simp [namesOf]), unsound,
    List.filter_eq_nil_iff, List.range_eq_range', List.length_nil]
  simp

theorem refuses_refusalAt {i : Nat} (member : i ∈ m.unsound) :
    m.Refuses i (m.refusalAt i).diagnostic := by
  simp only [unsound, List.mem_filter, List.mem_range, decide_eq_true_eq] at member
  obtain ⟨inside, notSound⟩ := member
  have there := List.getElem?_eq_getElem inside
  have alone : ∀ line : Text, 10 ∉ line → line.splitOnByte 10 = [line] :=
    fun _ => Text.splitOnByte_plain
  cases kept : m.bodies[i] with
  | none =>
      rw [kept] at there
      rw [refusalAt, there, Option.join_some, Rejected.diagnostic, Unfit.message,
        alone "missing body" (by decide)]
      exact .absent there (Text.counts_ofNat i)
  | some b =>
      rw [kept] at there
      rw [refusalAt, there, Option.join_some]
      by_cases twice : b.name ∈ namesOf (m.bodies.take i)
      · simp only [if_pos twice, Rejected.diagnostic, Unfit.message]
        rw [alone "defined twice" (by decide)]
        exact .repeated there twice
      · have flawed : b.flaws ≠ [] := by
          intro flawless
          simp [soundAt?, there, twice, flawless] at notSound
        simp only [if_neg twice, Rejected.diagnostic, Unfit.message]
        rw [Flaw.lines_messages flawed]
        exact .malformed there twice flawed

theorem tells_of_found {f : Body × Violation} (member : f ∈ m.found) :
    Tells f.1 f.2 (f.2.diagnostic f.1) := by
  obtain ⟨b, sound, found⟩ := List.mem_flatMap.mp member
  obtain ⟨v, reported, rfl⟩ := List.mem_map.mp found
  obtain ⟨_, _, _, _, flawless⟩ := sound_split sound
  exact tells_diagnostic (by simp [Body.isValid, flawless]) reported

/-- The account says of every body that is not sound why it is not, and then tells all that is found
in the others. -/
theorem account_told (m : Module) : ∃ refusals findings, m.account = refusals ++ findings ∧
    List.Forall₂ m.Refuses m.unsound refusals ∧
    List.Forall₂ (fun f d => Tells f.1 f.2 d) m.found findings := by
  refine ⟨m.unsound.map fun i => (m.refusalAt i).diagnostic,
    m.found.map fun f => f.2.diagnostic f.1, ?_, ?_, ?_⟩
  · simp [account, found, List.map_flatMap, Function.comp_def]
  · rw [List.forall₂_map_right_iff, List.forall₂_same]
    exact fun i => refuses_refusalAt
  · rw [List.forall₂_map_right_iff, List.forall₂_same]
    exact fun f => tells_of_found

theorem isError_of_account {d : Diagnostic} (member : d ∈ m.account) : d.isError := by
  rw [account, List.mem_append] at member
  rcases member with member | member
  · obtain ⟨i, _, rfl⟩ := List.mem_map.mp member
    rfl
  · obtain ⟨b, _, member⟩ := List.mem_flatMap.mp member
    obtain ⟨v, _, rfl⟩ := List.mem_map.mp member
    unfold Violation.diagnostic
    split <;> rfl

theorem code_diagnostic_ne (b : Body) (v : Violation) :
    (Violation.diagnostic b v).code ≠ .invalidBody := by
  have kind : v.kind.code ≠ .invalidBody := by
    cases v.kind <;> simp only [ViolationKind.code] <;> decide
  unfold Violation.diagnostic
  split <;> exact kind

theorem unsound_eq_nil_iff (m : Module) :
    m.unsound = [] ↔ ∀ d ∈ m.account, d.code ≠ .invalidBody := by
  constructor
  · intro none d member
    rw [account, none, List.map_nil, List.nil_append] at member
    obtain ⟨b, _, member⟩ := List.mem_flatMap.mp member
    obtain ⟨v, _, rfl⟩ := List.mem_map.mp member
    exact code_diagnostic_ne b v
  · intro other
    rw [List.eq_nil_iff_forall_not_mem]
    intro i member
    exact other (m.refusalAt i).diagnostic
      (List.mem_append_left _ (List.mem_map_of_mem member)) rfl

end Mir.Module

namespace Session

variable {ω κ : Type}

/-- What a report owes to the bodies of a module, given a limit on diagnostics. -/
structure FileReport.AccountsFor (limit : Int) (m : Module) (r : FileReport) : Prop where
  checked : (screen m).fit = m.sound
  /-- Every body that is not sound is named with its reason, and everything that is found in a sound
  one is told under its name and those of its locals. -/
  told : ∃ refusals findings, m.account = refusals ++ findings ∧
    List.Forall₂ m.Refuses m.unsound refusals ∧
    List.Forall₂ (fun f d => Tells f.1 f.2 d) m.found findings
  findings : r.findings =
    (m.sound.map fun b => ⟨b.name, check b⟩).filter fun f => !f.found.isEmpty
  items : r.bag.items = if 0 < limit then m.account.take limit.toNat else m.account
  dropped : r.bag.dropped = m.account.length - r.bag.items.length
  hasErrors : r.hasErrors ↔ m.account ≠ []
  flawless : m.flaws = [] ↔ ∀ d ∈ m.account, d.code ≠ .invalidBody

theorem verdict_of_ok {loaded : Loaded} {m : Module} (path : Text) (limit : Int)
    (ok : loaded.module = .ok m) : verdict path limit loaded =
      { path, digest := loaded.digest, module := .ok m, rejected := m.unsound.map m.refusalAt
        findings := checkAll m.sound, bag := Bag.addAll { limit } m.account } := by
  rw [verdict, ok]
  simp only [Module.screen_fit, Module.screen_rejected, Module.diagnostics_sound, Module.account,
    Bag.addAll, List.map_map, List.foldl_append, Function.comp_def]

theorem module_verdict (path : Text) (limit : Int) (loaded : Loaded) :
    (verdict path limit loaded).module = loaded.module := by
  unfold verdict
  split <;> simp_all

theorem module_ofData {path data : Text} {m : Handoff.Module} (read : File.read path data = .ok m) :
    (Loaded.ofData path (.ok data)).module = .ok m.meaning := by
  simp only [Loaded.ofData, read]

theorem accountsFor_of_verdict {r : FileReport} {m : Module} {path : Text} {limit : Int}
    {loaded : Loaded} (told : r.unstamped = verdict path limit loaded) (ok : r.module = .ok m) :
    r.AccountsFor limit m := by
  have loadedOk : loaded.module = .ok m := by
    rw [← module_verdict path limit, ← told]
    exact ok
  rw [verdict_of_ok path limit loadedOk] at told
  have bag : r.bag = Bag.addAll { limit } m.account := congrArg FileReport.bag told
  have keeps := (Bag.keeps_empty limit).addAll m.account
  rw [List.nil_append, ← bag] at keeps
  have atLimit : r.bag.limit = limit := by rw [bag, Bag.limit_addAll]
  refine ⟨m.screen_fit, m.account_told, congrArg FileReport.findings told, ?_, ?_, ?_, ?_⟩
  · rw [keeps.items, atLimit, Bag.allowed]
    split
    · rw [← List.take_eq_take_min]
    · rw [List.take_length]
  · rw [keeps.dropped, keeps.length]
  · rw [FileReport.hasErrors, keeps.hasErrors, List.any_eq_true]
    constructor
    · rintro ⟨d, member, -⟩
      exact List.ne_nil_of_mem member
    · intro some
      obtain ⟨d, member⟩ := List.exists_mem_of_ne_nil _ some
      exact ⟨d, member, Module.isError_of_account member⟩
  · rw [m.flaws_eq_nil_iff, m.unsound_eq_nil_iff]

def Run.answer (s : Run (Beside ω κ)) (parent : Nat) (path : Text) (t : Trace.Tracer) (o : ω) (w : κ) :
    FileReport × Bool :=
  ((((s.checkFile parent path).run t).run o).run w).1.1.1

/-- Without a store and unless somebody cancels it, a run tells the verdict on what it read. -/
theorem Run.answer_of_no_store {s : Run (Beside ω κ)} (noStore : s.store = none)
    (goesOn : ∀ o w, (s.watcher.isCancelled o w).1.1 = false) (parent : Nat) (path : Text)
    (t : Trace.Tracer) (o : ω) (w : κ) :
    (s.answer parent path t o w).2 = false ∧
      ∃ w' data, s.Reads w' path data ∧
        (s.answer parent path t o w).1.unstamped = verdict path s.limit (.ofData path data) := by
  -- nothing is asked of the machine, so it may change in any way
  have steady : s.Steady fun _ _ => True :=
    { drift := ⟨fun _ => trivial, fun _ _ => trivial⟩
      clock := fun _ _ => trivial
      read := fun _ _ _ => trivial
      progress := fun _ _ _ => trivial
      phase := fun _ _ _ => trivial
      goesOn := fun w o => ⟨goesOn o w, trivial⟩ }
  have checks : ∀ w', True → s.ChecksTruly (fun _ _ => True) w' path fun _ => True :=
    fun _ _ _ _ _ _ _ _ n _ _ =>
      (ensures_check_of_no_store steady noStore _ _ _ n).mono fun _ _ ⟨found, _⟩ => ⟨found, trivial⟩
  have told := ensures_checkFile (w := w) steady (fun _ _ _ _ => trivial) trivial checks parent t o
  obtain ⟨finished, ⟨w', data, _, reads, verdict⟩, _⟩ := told
  exact ⟨finished, w', data, reads, verdict⟩

/-- Without a store and unless somebody cancels it, a run goes through with a file, and what it reports
accounts for every body of the module that it loads. -/
theorem Run.checkFile_accounts (s : Run (Beside ω κ)) (noStore : s.store = none)
    (goesOn : ∀ o w, (s.watcher.isCancelled o w).1.1 = false) (parent : Nat) (path : Text)
    (t : Trace.Tracer) (o : ω) (w : κ) :
    (s.answer parent path t o w).2 = false ∧
      ∀ m, (s.answer parent path t o w).1.module = .ok m →
        (s.answer parent path t o w).1.AccountsFor s.limit m := by
  obtain ⟨finished, _, _, _, told⟩ := Run.answer_of_no_store noStore goesOn parent path t o w
  exact ⟨finished, fun m ok => accountsFor_of_verdict told ok⟩

/-- A body that drops a local twice. -/
def closing (name : Text) : Handoff.Body where
  name
  locals := some [{ name := "out" }, { name := "file", type := { kind := 24, name := "File" } }]
  blocks := some [{
    statements := some [{ kind := 1, drop := ⟨⟨1⟩⟩ }, { kind := 1, drop := ⟨⟨1⟩⟩ }]
    term := { kind := 3 } }]

/-- An absent body, one without blocks, one with the name of that, and a sound one. -/
def patchy : Handoff.Module where
  name := "patchy"
  bodies := some [none, some { name := "main" }, some (closing "main"), some (closing "close")]

theorem small {n : Nat} (few : n < 100) : Pack.IsSize n := by
  unfold Pack.IsSize
  omega

theorem short_closing {name : Text} (short : Pack.IsSize name.length) : (closing name).IsShort := by
  have out : Pack.IsSize (Text.ofString "out").length := small (by decide)
  have file : Pack.IsSize (Text.ofString "file").length := small (by decide)
  have plain : ({} : Handoff.Ty).IsShort := by constructor <;> simp [small]
  have fileType : Handoff.Ty.IsShort { kind := 24, name := "File" } := by
    constructor
    case name => exact small (by decide)
    all_goals simp [small]
  simp [closing, Handoff.Body.isShort_iff, Handoff.LocalDecl.isShort_iff, Handoff.Block.isShort_iff,
    Handoff.Terminator.isShort_iff, Handoff.SwitchInt.isShort_iff, Handoff.Call.isShort_iff,
    Handoff.Assert.isShort_iff, Handoff.Statement.IsShort, Handoff.RValue.isShort_iff,
    Handoff.Binary.isShort_iff, Handoff.Unary.IsShort, Handoff.Aggregate.isShort_iff,
    Handoff.Cast.isShort_iff, Handoff.Operand.IsShort, Handoff.Const.IsShort, Handoff.Slice.Each,
    small, short, out, file, plain, fileType]

theorem short_patchy : patchy.IsShort := by
  have main : Pack.IsSize (Text.ofString "main").length := small (by decide)
  have close : Pack.IsSize (Text.ofString "close").length := small (by decide)
  have name : Pack.IsSize (Text.ofString "patchy").length := small (by decide)
  have plain : ({} : Handoff.Ty).IsShort := by constructor <;> simp [small]
  have empty : Handoff.Body.IsShort { name := "main" } := by
    simp [Handoff.Body.isShort_iff, Handoff.Slice.Each, plain, main]
  simp [patchy, Handoff.Module.isShort_iff, Handoff.Slice.Each, name, empty, short_closing main,
    short_closing close, small]

theorem read_patchy : File.read "patchy.mp" (Pack.encodeModule patchy) = .ok patchy := by
  have packed : FileFormat.ofPath? (Text.ofString "patchy.mp") = some .msgpack := by decide +kernel
  have decoded := Pack.decodeModule_encodeModule short_patchy []
  rw [List.append_nil] at decoded
  simp only [File.read, packed, FileFormat.read, FileFormat.readPacked, decoded, File.named]
  rfl

/-- A run that keeps two diagnostics for each file, on a machine where every path leads to `patchy`. -/
def patchyRun : Run (Beside Unit Memory) where
  host := { Memory.host with read := fun _ => return .ok (Pack.encodeModule patchy) }
  watcher := .none
  version := "1"
  limit := 2

theorem patchy_accounted : ∃ r, (patchyRun.answer 0 "patchy.mp" {} () {}).1 = r ∧
    r.module = .ok patchy.meaning ∧ patchy.meaning.unsound = [0, 1, 2] ∧
    patchy.meaning.account.length = 4 ∧ r.AccountsFor 2 patchy.meaning := by
  have goesOn : ∀ o w, (patchyRun.watcher.isCancelled o w).1.1 = false := fun _ _ => rfl
  have answered := Run.answer_of_no_store (s := patchyRun) rfl goesOn 0 "patchy.mp" {} () {}
  obtain ⟨_, _, _, ⟨_, rfl⟩, told⟩ := answered
  have ok : (patchyRun.answer 0 "patchy.mp" {} () {}).1.module = .ok patchy.meaning := by
    have same := (congrArg FileReport.module told).trans (module_verdict _ _ _)
    exact same.trans (module_ofData read_patchy)
  have accounts := (Run.checkFile_accounts patchyRun rfl goesOn 0 "patchy.mp" {} () {}).2 _ ok
  exact ⟨_, rfl, ok, by decide +kernel, by cbv, accounts⟩

end Session

end BorrowChecker
