import Mathlib
import BorrowChecker.Session.Run

/-!
What a run answers and what it does to its machine. The machine is the state of the computations; a
run may be followed by observers with a state of their own. Main statement: a run that nobody cancels
tells of a file the verdict on what it read there, as soon as the findings that it uses are those that
checking gives (`Run.ensures_checkFile`).
-/

namespace BorrowChecker

open Ownership Session Trace

variable {ω κ α β : Type}

/-- Computations on a machine, beside the state of whoever observes them. -/
abbrev Beside (ω κ : Type) := StateT ω (StateM κ)

/-- From a machine, a computation ends in an answer and a machine that are as said, whatever the
observers remember. -/
def Ensures (c : Beside ω κ α) (w : κ) (Post : α → κ → Prop) : Prop :=
  ∀ o, Post (c o w).1.1 (c o w).2

def Aside (R : κ → κ → Prop) (c : Beside ω κ α) : Prop := ∀ w, Ensures c w fun _ w' => R w w'

namespace Ensures

variable {c : Beside ω κ α} {w : κ} {Post Mid : α → κ → Prop}

theorem pure {a : α} (holds : Post a w) : Ensures (pure a : Beside ω κ α) w Post := fun _ => holds

theorem bind {f : α → Beside ω κ β} {Last : β → κ → Prop} (first : Ensures c w Mid)
    (next : ∀ a w', Mid a w' → Ensures (f a) w' Last) : Ensures (c >>= f) w Last :=
  fun o => next _ _ (first o) _

theorem mono (holds : Ensures c w Mid) (weaken : ∀ a w', Mid a w' → Post a w') : Ensures c w Post :=
  fun o => weaken _ _ (holds o)

theorem discard {Last : κ → Prop} (holds : Ensures c w fun _ => Last) :
    Ensures (discard c) w fun _ => Last := fun o => holds o

end Ensures

structure Drift (R : κ → κ → Prop) : Prop where
  refl : ∀ w, R w w
  trans : ∀ {u v w}, R u v → R v w → R u w

namespace Trace.Traced

def Ensures (c : Traced (Beside ω κ) α) (w : κ) (Post : α → κ → Prop) : Prop :=
  ∀ t, BorrowChecker.Ensures (c t) w fun r w' => Post r.1 w'

namespace Ensures

variable {c : Traced (Beside ω κ) α} {w : κ} {Post Mid : α → κ → Prop}

theorem pure {a : α} (holds : Post a w) : Ensures (pure a : Traced (Beside ω κ) α) w Post :=
  fun _ _ => holds

theorem bind {f : α → Traced (Beside ω κ) β} {Last : β → κ → Prop} (first : Ensures c w Mid)
    (next : ∀ a w', Mid a w' → Ensures (f a) w' Last) : Ensures (c >>= f) w Last :=
  fun t o => next _ _ (first t o) _ _

theorem mono (holds : Ensures c w Mid) (weaken : ∀ a w', Mid a w' → Post a w') : Ensures c w Post :=
  fun t o => weaken _ _ (holds t o)

theorem lift {act : Beside ω κ α} (holds : BorrowChecker.Ensures act w Post) :
    Ensures (liftM act : Traced (Beside ω κ) α) w Post :=
  fun _ o => holds o

theorem discard {Last : κ → Prop} (holds : Ensures c w fun _ => Last) :
    Ensures (discard c) w fun _ => Last := fun t o => holds t o

end Ensures

def Answers (R : κ → κ → Prop) (c : Traced (Beside ω κ) α) (answer : α) : Prop :=
  ∀ w, Ensures c w fun a w' => a = answer ∧ R w w'

namespace Answers

variable {R : κ → κ → Prop} {c : Traced (Beside ω κ) α} {answer : α}

theorem pure (drift : Drift R) : Answers R (pure answer : Traced (Beside ω κ) α) answer :=
  fun w => .pure ⟨rfl, drift.refl w⟩

theorem before {f : α → Traced (Beside ω κ) β} {w : κ} {Post : β → κ → Prop}
    (first : Answers R c answer) (next : ∀ w', R w w' → Ensures (f answer) w' Post) :
    Ensures (c >>= f) w Post :=
  (first w).bind fun a w' ⟨same, moved⟩ => by
    rw [same]
    exact next w' moved

theorem bind {f : α → Traced (Beside ω κ) β} {last : β} (drift : Drift R)
    (first : Answers R c answer) (next : Answers R (f answer) last) : Answers R (c >>= f) last :=
  fun _ => first.before fun w' moved =>
    (next w').mono fun _ _ ⟨same, later⟩ => ⟨same, drift.trans moved later⟩

/-- An answer that does not depend on what was answered before. -/
theorem after {d : Traced (Beside ω κ) β} {f : β → Traced (Beside ω κ) α} (drift : Drift R)
    (first : ∀ w, Ensures d w fun _ w' => R w w') (next : ∀ b, Answers R (f b) answer) :
    Answers R (d >>= f) answer :=
  fun w => (first w).bind fun b w' moved =>
    (next b w').mono fun _ _ ⟨same, later⟩ => ⟨same, drift.trans moved later⟩

theorem lift {act : Beside ω κ Unit} (aside : Aside R act) :
    Answers R (liftM act : Traced (Beside ω κ) Unit) () :=
  fun w => .lift fun o => ⟨rfl, aside w o⟩

theorem forIn (drift : Drift R) {f : β → Traced (Beside ω κ) Unit} (each : ∀ b, Answers R (f b) ()) :
    ∀ items : List β, Answers R
      (forIn items PUnit.unit fun b _ => do f b; Pure.pure (ForInStep.yield PUnit.unit)) ()
  | [] => .pure drift
  | b :: rest => by
    rw [List.forIn_cons]
    simp only [bind_assoc, pure_bind]
    exact (each b).bind drift (forIn drift each rest)

theorem mapM (drift : Drift R) {f : β → Traced (Beside ω κ) α} {g : β → α}
    (each : ∀ b, Answers R (f b) (g b)) : ∀ items : List β, Answers R (items.mapM f) (items.map g)
  | [] => by
    rw [List.mapM_nil]
    exact .pure drift
  | b :: rest => by
    rw [List.mapM_cons]
    exact (each b).bind drift ((mapM drift each rest).bind drift (.pure drift))

end Answers

variable {R : κ → κ → Prop} {clock : Beside ω κ Nat}

theorem answers_leave (aside : Aside R clock) (span : Option Span) (detail : Text) :
    Answers R (leave clock span detail) () := fun w _ o => ⟨rfl, aside w o⟩

theorem answers_point (aside : Aside R clock) (span : Option Span) (scope : Scope)
    (name detail : Text) : Answers R (point clock span scope name detail) () :=
  fun w _ o => ⟨rfl, aside w o⟩

/-- Opening a span may answer anything. -/
theorem ensures_enter (aside : Aside R clock) (scope : Scope) (name : Text) (parent : Nat) (w : κ) :
    Ensures (enter clock scope name parent) w fun _ w' => R w w' := fun _ o => aside w o

end Trace.Traced

namespace Trace

variable {R : κ → κ → Prop} {clock : Beside ω κ Nat}

theorem answers_checkBody (drift : Drift R) (aside : Aside R clock) (parent : Nat) (b : Mir.Body) :
    Traced.Answers R (checkBody clock parent b) (check b) := by
  unfold checkBody check
  split
  · exact .pure drift
  · refine .after drift (Traced.ensures_enter aside _ _ _) fun span => ?_
    refine (Traced.Answers.forIn drift (fun _ => Traced.answers_point aside _ _ _ _) _).bind drift ?_
    exact (Traced.answers_leave aside _ _).bind drift (.pure drift)

theorem answers_checkModule (drift : Drift R) (aside : Aside R clock)
    {tell : Text → BodyStatus → Traced (Beside ω κ) Unit}
    (tells : ∀ body status, Traced.Answers R (tell body status) ()) (parent : Nat) (name : Text)
    (bodies : List Mir.Body) :
    Traced.Answers R (checkModule clock tell parent name bodies) (checkAll bodies) := by
  unfold checkModule
  split
  case isTrue none =>
    rw [List.isEmpty_iff.mp none]
    exact .pure drift
  case isFalse =>
    refine .after drift (Traced.ensures_enter aside _ _ _) fun span => ?_
    refine (Traced.Answers.forIn drift (fun _ => tells _ _) _).bind drift ?_
    have each : ∀ b : Mir.Body, Traced.Answers R (do
        tell b.name .working
        let found ← checkBody clock (if span.isSome then Span.idOf span else parent) b
        tell b.name (.done found.length)
        return (⟨b.name, found⟩ : BodyFindings)) ⟨b.name, check b⟩ := fun b =>
      (tells _ _).bind drift ((answers_checkBody drift aside _ b).bind drift
        ((tells _ _).bind drift (.pure drift)))
    refine (Traced.Answers.mapM drift each bodies).bind drift ?_
    exact (Traced.answers_leave aside _ _).bind drift (.pure drift)

end Trace

namespace Session

variable {R : κ → κ → Prop}

/-- A run that nobody cancels, and whose watcher, clock and reading change the machine in certain ways
only. -/
structure Run.Steady (R : κ → κ → Prop) (s : Run (Beside ω κ)) : Prop where
  drift : Drift R
  clock : Aside R s.host.clock
  read : ∀ path, Aside R (s.host.read path)
  progress : ∀ e, Aside R (s.watcher.progress e)
  phase : ∀ e, Aside R (s.watcher.phase e)
  goesOn : ∀ w, Ensures s.watcher.isCancelled w fun isCancelled w' => isCancelled = false ∧ R w w'

def Run.Reads (s : Run (Beside ω κ)) (w : κ) (path : Text) (data : Except FileFault Text) : Prop :=
  ∃ o, (s.host.read path o w).1.1 = data

/-- What there is to say about a file, without a word on how it was come by. -/
def FileReport.unstamped (r : FileReport) : FileReport := { r with isCached := false, timing := {} }

def verdict (path : Text) (limit : Int) (loaded : Loaded) : FileReport :=
  match loaded.module with
  | .error fault =>
    { path, digest := loaded.digest, module := .error fault
      bag := Bag.add { limit } fault.diagnostic }
  | .ok m =>
    { path, digest := loaded.digest, module := .ok m, rejected := (screen m).rejected
      findings := checkAll (screen m).fit
      bag := (Bag.addAll { limit } ((screen m).rejected.map Rejected.diagnostic)).addAll
        (diagnostics m (checkAll (screen m).fit)) }

namespace Run

variable {s : Run (Beside ω κ)} {w : κ} {path : Text}

theorem Steady.tell (steady : s.Steady R) (e : ProgressEvent) : Traced.Answers R (s.tell e) () :=
  .lift (steady.progress e)

theorem Steady.asked (steady : s.Steady R) :
    Traced.Answers R (liftM s.watcher.isCancelled : Traced (Beside ω κ) Bool) false :=
  fun w => .lift (steady.goesOn w)

/-- A stage ensures what its work ensures, as long as that outlasts what others do to the machine. -/
theorem ensures_stage (steady : s.Steady R) {stage : Stage} {parent : Nat}
    {work : Nat → Traced (Beside ω κ) (α × Text)} (Post : α → κ → Prop)
    (lasting : ∀ a u v, Post a u → R u v → Post a v)
    (works : ∀ n w', R w w' → Traced.Ensures (work n) w' fun r w'' => Post r.1 w'') :
    Traced.Ensures (s.stage path stage parent work) w fun r w' => Post r.1 w' := by
  have clock : ∀ w, Traced.Ensures (liftM s.host.clock) w fun _ w' => R w w' :=
    fun w => .lift (steady.clock w)
  unfold Run.stage
  refine (Traced.Answers.lift (steady.phase _)).before fun w₁ to₁ => ?_
  refine (clock w₁).bind fun start w₂ to₂ => ?_
  refine (Traced.ensures_enter steady.clock _ _ _ w₂).bind fun span w₃ to₃ => ?_
  have moved := steady.drift.trans (steady.drift.trans to₁ to₂) to₃
  refine (works _ w₃ moved).bind fun ⟨result, note⟩ w₄ holds => ?_
  refine (Traced.answers_leave steady.clock _ _).before fun w₅ to₅ => ?_
  refine (clock w₅).bind fun stop w₆ to₆ => ?_
  refine (Traced.Answers.lift (steady.phase _)).before fun w₇ to₇ => ?_
  have later := steady.drift.trans (steady.drift.trans to₅ to₆) to₇
  exact .pure (lasting result w₄ w₇ holds later)

theorem ensures_load (steady : s.Steady R) (n : Nat) :
    Traced.Ensures (s.load path n) w fun r w' =>
      (∃ data, s.Reads w path data ∧ r.1 = .ofData path data) ∧ R w w' := by
  unfold load
  have reading : Traced.Ensures (liftM (s.host.read path)) w fun data w' =>
      s.Reads w path data ∧ R w w' := .lift fun o => ⟨⟨o, rfl⟩, steady.read path w o⟩
  refine reading.bind fun data w' ⟨reads, moved⟩ => ?_
  dsimp only
  split <;> exact .pure ⟨⟨data, reads, rfl⟩, moved⟩

/-- Without a store bodies are checked. -/
theorem ensures_check_of_no_store (steady : s.Steady R) (noStore : s.store = none) (name : Text)
    (digest : Digest) (fit : List Mir.Body) (n : Nat) :
    Traced.Ensures (s.check path name digest fit n) w fun r w' =>
      r.1.findings = checkAll fit ∧ R w w' := by
  unfold Run.check
  rw [noStore]
  simp only [pure_bind, acceptable?]
  refine (answers_checkModule steady.drift steady.clock (fun _ _ => steady.tell _) _ _ _).before
    fun w' moved => ?_
  exact .pure ⟨rfl, moved⟩

def entryFor (s : Run (Beside ω κ)) (name : Text) (fit : List Mir.Body) : Cache.Entry :=
  { module := name, version := s.version, bodies := fit.length
    findings := if (checkAll fit).isEmpty then none else some (checkAll fit) }

/-- With a store that answers only what checking gives, bodies are checked or that answer is taken. -/
theorem ensures_check_of_store (steady : s.Steady Eq) {store : Cache.Store (Beside ω κ)}
    (stored : s.store = some store) {name : Text} {digest : Digest} {fit : List Mir.Body}
    {Done : κ → Prop} (idle : Done w)
    (get : Ensures (store.get (cacheKey s.version digest)) w fun answer w' => w = w' ∧
      ∀ findings, acceptable? s.version fit.length answer = some findings → findings = checkAll fit)
    (put : Ensures (store.put (cacheKey s.version digest) (s.entryFor name fit)) w fun _ => Done)
    (n : Nat) :
    Traced.Ensures (s.check path name digest fit n) w fun r w' =>
      r.1.findings = checkAll fit ∧ Done w' := by
  unfold Run.check
  rw [stored]
  dsimp only
  refine (Traced.Ensures.lift get).bind ?_
  rintro recalled _ ⟨rfl, right⟩
  split
  case h_1 findings accepted =>
    refine (Traced.Answers.forIn steady.drift (fun _ => steady.tell _) _).before ?_
    rintro _ rfl
    exact .pure ⟨right findings accepted, idle⟩
  case h_2 =>
    refine (answers_checkModule steady.drift steady.clock (fun _ _ => steady.tell _) _ _ _).before ?_
    rintro _ rfl
    refine steady.asked.before ?_
    rintro _ rfl
    refine (Traced.Ensures.discard (.lift put)).bind fun _ w' done => ?_
    exact .pure ⟨rfl, done⟩

/-- What is said about a file is the verdict on something that could be read there. -/
def Tells (R : κ → κ → Prop) (s : Run (Beside ω κ)) (w : κ) (path : Text) (r : FileReport) : Prop :=
  ∃ w' data, R w w' ∧ s.Reads w' path data ∧
    r.unstamped = verdict path s.limit (.ofData path data)

/-- Findings that a check answers are those that checking gives, for whatever is read from a path; it
leaves the machine in one of certain states. -/
def ChecksTruly (R : κ → κ → Prop) (s : Run (Beside ω κ)) (w : κ) (path : Text)
    (Done : κ → Prop) : Prop :=
  ∀ w₁ data m, R w w₁ → s.Reads w₁ path data → (Loaded.ofData path data).module = .ok m →
    ∀ n w₂, R w w₂ →
      Traced.Ensures (s.check path m.name (Loaded.ofData path data).digest (screen m).fit n) w₂
        fun r w₃ => r.1.findings = checkAll (screen m).fit ∧ Done w₃

theorem ensures_stages (steady : s.Steady R) {Done : κ → Prop}
    (lasting : ∀ u v, Done u → R u v → Done v) (idle : Done w)
    (checks : s.ChecksTruly R w path Done) (parent : Nat) :
    Traced.Ensures (s.stages path parent) w fun r w' =>
      r.2.2 = false ∧ s.Tells R w path r.1 ∧ Done w' := by
  have drift := steady.drift
  unfold stages
  refine (steady.tell _).before fun w₁ to₁ => ?_
  refine (ensures_stage steady (fun loaded w' => (∃ w₂ data, R w w₂ ∧ s.Reads w₂ path data ∧
      loaded = .ofData path data) ∧ R w w')
    (fun _ _ _ ⟨reads, moved⟩ later => ⟨reads, drift.trans moved later⟩)
    (fun n w₂ to₂ => (ensures_load steady n).mono fun _ _ ⟨⟨data, reads, same⟩, moved⟩ =>
      have came := drift.trans to₁ to₂
      ⟨⟨w₂, data, came, reads, same⟩, drift.trans came moved⟩)).bind ?_
  rintro ⟨_, lap⟩ w₃ ⟨⟨w₂, data, to₂, reads, rfl⟩, to₃⟩
  dsimp only
  split
  case h_1 fault failed =>
    refine (steady.tell _).before fun w₄ to₄ => .pure ⟨rfl, ?_, lasting _ _ idle (drift.trans to₃ to₄)⟩
    refine ⟨w₂, data, to₂, reads, ?_⟩
    rw [verdict, failed]
    rfl
  case h_2 m loaded =>
    refine (ensures_stage steady (fun screened w' => screened = screen m ∧ R w w')
      (fun _ _ _ ⟨same, moved⟩ later => ⟨same, drift.trans moved later⟩)
      (fun _ w₄ to₄ => .pure ⟨rfl, drift.trans to₃ to₄⟩)).bind ?_
    rintro ⟨_, _⟩ w₄ ⟨rfl, to₄⟩
    refine steady.asked.before fun w₅ to₅ => ?_
    rw [if_neg Bool.false_ne_true]
    refine (ensures_stage steady (fun checked w' => checked.findings = checkAll (screen m).fit ∧ Done w')
      (fun _ _ _ ⟨same, done⟩ later => ⟨same, lasting _ _ done later⟩)
      (fun n w₆ to₆ => checks w₂ data m to₂ reads loaded n w₆
        (drift.trans to₄ (drift.trans to₅ to₆)))).bind ?_
    rintro ⟨checked, _⟩ w₆ ⟨found, done⟩
    refine steady.asked.before fun w₇ to₇ => ?_
    rw [if_neg Bool.false_ne_true]
    refine (ensures_stage steady (fun report w' =>
        report.unstamped = verdict path s.limit (.ofData path data) ∧ Done w')
      (fun _ _ _ ⟨same, done⟩ later => ⟨same, lasting _ _ done later⟩)
      (fun _ w₈ to₈ => .pure ⟨?_, lasting _ _ (lasting _ _ done to₇) to₈⟩)).bind ?_
    · rw [verdict, loaded]
      dsimp only at found ⊢
      rw [found]
      rfl
    · rintro ⟨report, _⟩ w₈ ⟨same, done⟩
      exact (steady.tell _).before fun w₉ to₉ =>
        .pure ⟨rfl, ⟨w₂, data, to₂, reads, same⟩, lasting _ _ done to₉⟩

/-- A run that nobody cancels goes through with a file. It tells the verdict on what it read there, if
the findings it uses are those that checking gives. -/
theorem ensures_checkFile (steady : s.Steady R) {Done : κ → Prop}
    (lasting : ∀ u v, Done u → R u v → Done v) (idle : Done w)
    (checks : ∀ w', R w w' → s.ChecksTruly R w' path Done) (parent : Nat) :
    Traced.Ensures (s.checkFile parent path) w fun r w' =>
      r.2 = false ∧ s.Tells R w path r.1 ∧ Done w' := by
  have drift := steady.drift
  unfold checkFile
  refine (Traced.ensures_enter steady.clock _ _ _ w).bind fun span w₁ to₁ => ?_
  refine (ensures_stages steady lasting (lasting _ _ idle to₁) (checks w₁ to₁) _).bind ?_
  rintro ⟨report, laps, _⟩ w₂ ⟨rfl, ⟨w', data, moved, told⟩, done⟩
  refine (Traced.answers_leave steady.clock _ _).before fun w₃ to₃ => ?_
  exact .pure ⟨rfl, ⟨w', data, drift.trans to₁ moved, told⟩, lasting _ _ done to₃⟩

end Run

end Session

end BorrowChecker
