import Mathlib
import BorrowChecker.Proofs.Account
import BorrowChecker.Proofs.Storing

/-!
Recalled findings are those that checking gives. Runs over files share a store that is empty at first
and that only they write; between two runs all other files may change in any way. Main statement: what
each run tells is what it would tell without the store, as long as the digest tells the contents apart
that were seen, entries are read back, and no contents are a module in two formats
(`History.same_report`).
-/

namespace BorrowChecker

open Mir Ownership Session

/-! ## Keys -/

namespace Digest

theorem length_bytesOf (width n : Nat) : (Sha256.bytesOf width n).length = width := by
  induction width generalizing n with
  | zero => rfl
  | succ width ih => rw [Sha256.bytesOf, List.length_append, ih, List.length_singleton]

theorem length_ofText (data : Text) : (ofText data).bytes.length = 32 := by
  simp [ofText, Sha256.Words.bytes, length_bytesOf]

end Digest

namespace Session

def keyText (version : Text) (content : Digest) : Text :=
  content.bytes ++ [version, Text.ofNat Cache.currentLayout.toNat].flatMap fun salt => 0 :: salt

/-- The text of a key tells the version and the digest of the contents. -/
theorem keyText_injective {v v' a b : Text} (same : keyText v (.ofText a) = keyText v' (.ofText b)) :
    v = v' ∧ Digest.ofText a = Digest.ofText b := by
  obtain ⟨bytes, salts⟩ := List.append_inj same (by simp only [Digest.length_ofText])
  constructor
  · simp only [List.flatMap_cons, List.flatMap_nil, List.append_nil, List.cons_append,
      List.cons.injEq, true_and] at salts
    exact List.append_cancel_right salts
  · exact congrArg Digest.mk bytes

/-! ## Visits -/

structure Visit (ω : Type) where
  watcher : Watcher (Beside ω Memory)
  version : Text
  limit : Int := 0
  path : Text
  parent : Nat := 0
  tracer : Trace.Tracer := {}
  observer : ω
  machine : Memory

/-- A watcher that leaves the machine alone and does not cancel. -/
structure Watcher.IsBystander {ω κ : Type} (watcher : Watcher (Beside ω κ)) : Prop where
  progress : ∀ e, Aside Eq (watcher.progress e)
  phase : ∀ e, Aside Eq (watcher.phase e)
  goesOn : ∀ w, Ensures watcher.isCancelled w fun isCancelled w' => isCancelled = false ∧ w = w'

namespace Visit

variable {ω : Type} {v : Visit ω} {store : Option (Cache.Store (Beside ω Memory))}

def run (v : Visit ω) (store : Option (Cache.Store (Beside ω Memory))) : Run (Beside ω Memory) :=
  { host := Memory.host, watcher := v.watcher, store, version := v.version, limit := v.limit }

/-- What is told about the file, and whether the run was cancelled. -/
def answer (v : Visit ω) (store : Option (Cache.Store (Beside ω Memory))) : FileReport × Bool :=
  (v.run store).answer v.parent v.path v.tracer v.observer v.machine

def storeIn (root : Text) : Cache.Store (Beside ω Memory) := .inDirectory Memory.host root

def after (v : Visit ω) (root : Text) : Memory :=
  ((((v.run (some (storeIn root))).checkFile v.parent v.path).run v.tracer).run v.observer).run
    v.machine |>.2

def content? (v : Visit ω) : Option Text := (v.machine.read v.path).toOption

def loaded (v : Visit ω) : Loaded := .ofData v.path (v.machine.read v.path)

def keyText? (v : Visit ω) : Option Text :=
  v.content?.map fun content => keyText v.version (.ofText content)

def entryFor (v : Visit ω) (m : Module) : Cache.Entry :=
  (v.run none).entryFor m.name (screen m).fit

theorem steady (bystander : v.watcher.IsBystander) : (v.run store).Steady Eq where
  drift := ⟨fun _ => rfl, Eq.trans⟩
  clock := fun _ _ => rfl
  read := fun _ _ _ => rfl
  progress := bystander.progress
  phase := bystander.phase
  goesOn := bystander.goesOn

/-- A visit tells the verdict on the file, if the findings it uses are those that checking gives. -/
theorem ensures_checkFile (bystander : v.watcher.IsBystander) {Done : Memory → Prop}
    (idle : Done v.machine)
    (checks : ∀ m, v.loaded.module = .ok m → ∀ n,
      Trace.Traced.Ensures ((v.run store).check v.path m.name v.loaded.digest (screen m).fit n)
        v.machine fun r w' => r.1.findings = checkAll (screen m).fit ∧ Done w') :
    Trace.Traced.Ensures ((v.run store).checkFile v.parent v.path) v.machine fun r w' =>
      r.2 = false ∧ r.1.unstamped = verdict v.path v.limit v.loaded ∧ Done w' := by
  have truly : ∀ w, v.machine = w → (v.run store).ChecksTruly Eq w v.path Done := by
    rintro _ rfl _ _ m rfl ⟨_, rfl⟩ loaded n _ rfl
    exact checks m loaded n
  have lasting : ∀ u w : Memory, Done u → u = w → Done w := by
    rintro _ _ done rfl
    exact done
  refine (Run.ensures_checkFile (steady bystander) lasting idle truly v.parent).mono ?_
  rintro ⟨report, _⟩ w' ⟨finished, ⟨_, _, rfl, ⟨_, rfl⟩, told⟩, done⟩
  exact ⟨finished, told, done⟩

theorem answer_of_no_store (bystander : v.watcher.IsBystander) :
    (v.answer none).2 = false ∧ (v.answer none).1.unstamped = verdict v.path v.limit v.loaded := by
  have checks : ∀ m, v.loaded.module = .ok m → ∀ n,
      Trace.Traced.Ensures ((v.run none).check v.path m.name v.loaded.digest (screen m).fit n)
        v.machine fun r _ => r.1.findings = checkAll (screen m).fit ∧ True := fun m _ n =>
    (Run.ensures_check_of_no_store (steady bystander) rfl _ _ _ n).mono
      fun _ _ ⟨found, _⟩ => ⟨found, trivial⟩
  obtain ⟨finished, verdict, -⟩ := ensures_checkFile bystander trivial checks v.tracer v.observer
  exact ⟨finished, verdict⟩

end Visit

/-! ## Modules with the same contents -/

theorem bodies_named (path : Text) (m : Handoff.Module) :
    (File.named path m).meaning.bodies = m.meaning.bodies := by
  unfold File.named
  split <;> rfl

/-- Contents have the same bodies wherever they are read in the same format. -/
theorem bodies_of_same_content {path other content : Text} {m m' : Module}
    (format : FileFormat.ofPath? path = FileFormat.ofPath? other)
    (here : (Loaded.ofData path (.ok content)).module = .ok m)
    (there : (Loaded.ofData other (.ok content)).module = .ok m') : m.bodies = m'.bodies := by
  simp only [Loaded.ofData, File.read, ← format] at here there
  cases known : FileFormat.ofPath? path with
  | none => simp [known] at here
  | some format =>
    cases read : format.read content with
    | error fault => simp [known, read] at here
    | ok handed =>
      simp only [known, read] at here there
      rw [← Except.ok.inj here, ← Except.ok.inj there, bodies_named, bodies_named]

theorem screen_of_same_bodies {m m' : Module} (same : m.bodies = m'.bodies) : screen m = screen m' := by
  rw [screen, screen, same]

/-! ## Histories -/

def Collisionless (texts : List Text) : Prop :=
  ∀ a ∈ texts, ∀ b ∈ texts, Digest.ofText a = Digest.ofText b → a = b

variable {ω : Type} {root : Text} {past visits : List (Visit ω)} {u v : Visit ω}

/-- What visits have to satisfy to share a store: the digest tells apart the contents and the texts of
the keys, what is put into the store is read back, and no contents are a module in two formats. -/
structure Compatible (visits : List (Visit ω)) : Prop where
  contents : Collisionless (visits.filterMap Visit.content?)
  keys : Collisionless (visits.filterMap Visit.keyText?)
  entries : ∀ v ∈ visits, ∀ m, v.loaded.module = .ok m →
    Cache.Entry.decode? (v.entryFor m).encode =
      some { v.entryFor m with layout := Cache.currentLayout }
  formats : ∀ u ∈ visits, ∀ v ∈ visits, u.content? = v.content? →
    u.loaded.module.isOk → v.loaded.module.isOk →
      FileFormat.ofPath? u.path = FileFormat.ofPath? v.path

/-- Visits, the latest first, that share a store. The first finds it empty, every other one finds at
most the entries that the one before it left. -/
inductive History (root : Text) : List (Visit ω) → Prop
  | nil : History root []
  | first {v : Visit ω} (bystander : v.watcher.IsBystander)
      (empty : ∀ key data, v.machine.read (Cache.Store.pathFor root key) ≠ .ok data) :
      History root [v]
  | next {v u : Visit ω} {past : List (Visit ω)} (earlier : History root (u :: past))
      (bystander : v.watcher.IsBystander)
      (left : ∀ key data, v.machine.read (Cache.Store.pathFor root key) = .ok data →
        (u.after root).read (Cache.Store.pathFor root key) = .ok data) :
      History root (v :: u :: past)

def Visit.Puts (v : Visit ω) (key : Digest) (data : Text) : Prop :=
  ∃ content m, v.machine.read v.path = .ok content ∧ v.loaded.module = .ok m ∧
    key = cacheKey v.version (.ofText content) ∧ data = (v.entryFor m).encode

def Recalls (root : Text) (visits : List (Visit ω)) (s : Memory) : Prop :=
  ∀ key data, s.read (Cache.Store.pathFor root key) = .ok data → ∃ v ∈ visits, v.Puts key data

theorem Visit.content?_of_read {content : Text} (read : v.machine.read v.path = .ok content) :
    v.content? = some content := by
  simp [content?, read, Except.toOption]

/-- A visit that puts something under the key of another saw the same bodies in the same version. -/
theorem Compatible.same_key (compatible : Compatible visits) (isOne : u ∈ visits) (isOther : v ∈ visits)
    {a b : Text} {m m' : Module} (readU : u.machine.read u.path = .ok a)
    (readV : v.machine.read v.path = .ok b) (loadedU : u.loaded.module = .ok m)
    (loadedV : v.loaded.module = .ok m')
    (same : cacheKey u.version (.ofText a) = cacheKey v.version (.ofText b)) :
    u.version = v.version ∧ screen m = screen m' := by
  have contentU := Visit.content?_of_read readU
  have contentV := Visit.content?_of_read readV
  have keyU : u.keyText? = some (keyText u.version (.ofText a)) := by simp [Visit.keyText?, contentU]
  have keyV : v.keyText? = some (keyText v.version (.ofText b)) := by simp [Visit.keyText?, contentV]
  have texts := compatible.keys _ (List.mem_filterMap.mpr ⟨u, isOne, keyU⟩) _
    (List.mem_filterMap.mpr ⟨v, isOther, keyV⟩) same
  obtain ⟨version, digest⟩ := keyText_injective texts
  obtain rfl := compatible.contents _ (List.mem_filterMap.mpr ⟨u, isOne, contentU⟩) _
    (List.mem_filterMap.mpr ⟨v, isOther, contentV⟩) digest
  have format := compatible.formats u isOne v isOther (contentU.trans contentV.symm)
    (by rw [loadedU]; rfl) (by rw [loadedV]; rfl)
  rw [Visit.loaded, readU] at loadedU
  rw [Visit.loaded, readV] at loadedV
  exact ⟨version, screen_of_same_bodies (bodies_of_same_content format loadedU loadedV)⟩

/-- Findings that are taken from a store that only visits have written are those that checking gives. -/
theorem Compatible.accepted (compatible : Compatible (v :: past)) {content : Text} {m : Module}
    (read : v.machine.read v.path = .ok content) (loaded : v.loaded.module = .ok m) {data : Text}
    (put : ∃ u ∈ past, u.Puts (cacheKey v.version (.ofText content)) data) {bodies : Nat}
    {findings : List BodyFindings}
    (taken : acceptable? v.version bodies (Cache.Lookup.ofBytes data) = some findings) :
    findings = checkAll (screen m).fit := by
  obtain ⟨u, isOne, other, m', readU, loadedU, key, rfl⟩ := put
  have among : u ∈ v :: past := List.mem_cons_of_mem _ isOne
  have readBack := compatible.entries u among m' loadedU
  obtain ⟨-, same⟩ := compatible.same_key among (by simp) readU read loadedU loaded key.symm
  simp only [Cache.Lookup.ofBytes, readBack, if_true, acceptable?] at taken
  split at taken
  · rw [← Option.some.inj taken, ← same]
    simp only [Visit.entryFor, Run.entryFor]
    split <;> simp_all
  · cases taken

/-- A visit with a store that only earlier visits have written tells the verdict on its file, and puts
at most what it found there into the store. -/
theorem Visit.ensures_checkFile_of_store (bystander : v.watcher.IsBystander)
    (compatible : Compatible (v :: past)) (recalls : Recalls root past v.machine) :
    Trace.Traced.Ensures ((v.run (some (storeIn root))).checkFile v.parent v.path) v.machine
      fun r w' => r.2 = false ∧ r.1.unstamped = verdict v.path v.limit v.loaded ∧
        Recalls root (v :: past) w' := by
  have idle : Recalls root (v :: past) v.machine := fun key data read =>
    (recalls key data read).imp fun u ⟨isOne, puts⟩ => ⟨List.mem_cons_of_mem _ isOne, puts⟩
  refine ensures_checkFile bystander idle fun m loaded n => ?_
  obtain ⟨content, read⟩ : ∃ content, v.machine.read v.path = .ok content := by
    cases read : v.machine.read v.path with
    | ok content => exact ⟨content, rfl⟩
    | error fault => simp [Visit.loaded, read, Loaded.ofData] at loaded
  have digest : v.loaded.digest = .ofText content := by rw [Visit.loaded, read]; rfl
  rw [digest]
  refine Run.ensures_check_of_store (steady bystander) rfl idle ?_ ?_ n
  · refine (Cache.Store.ensures_get root _).mono ?_
    rintro answer _ ⟨rfl, kept⟩
    refine ⟨rfl, fun findings taken => ?_⟩
    cases answer with
    | miss => cases taken
    | unreadable => cases taken
    | hit e =>
      obtain ⟨data, found, hit⟩ := kept e rfl
      rw [← hit] at taken
      exact compatible.accepted read loaded (recalls _ _ found) taken
  · refine (Cache.Store.ensures_put root _ _).mono fun _ after puts key data found => ?_
    rcases puts key data found with ⟨rfl, rfl⟩ | before
    · exact ⟨v, by simp, content, m, read, loaded, rfl, rfl⟩
    · exact idle key data before

theorem Compatible.tail (compatible : Compatible (v :: past)) : Compatible past where
  contents := fun a isA b isB => compatible.contents a
    (((List.sublist_cons_self v past).filterMap _).subset isA) b
    (((List.sublist_cons_self v past).filterMap _).subset isB)
  keys := fun a isA b isB => compatible.keys a
    (((List.sublist_cons_self v past).filterMap _).subset isA) b
    (((List.sublist_cons_self v past).filterMap _).subset isB)
  entries := fun u isOne => compatible.entries u (List.mem_cons_of_mem _ isOne)
  formats := fun u isOne w isOther =>
    compatible.formats u (List.mem_cons_of_mem _ isOne) w (List.mem_cons_of_mem _ isOther)

/-- In a history every visit finds only what earlier ones have put into the store. -/
theorem History.recalls (history : History root (v :: past)) (compatible : Compatible (v :: past)) :
    v.watcher.IsBystander ∧ Recalls root past v.machine := by
  induction past generalizing v with
  | nil =>
    cases history with
    | first bystander empty => exact ⟨bystander, fun key data read => absurd read (empty key data)⟩
  | cons u past ih =>
    cases history with
    | next earlier bystander left =>
      obtain ⟨bystanderU, recallsU⟩ := ih earlier compatible.tail
      have visited := Visit.ensures_checkFile_of_store bystanderU compatible.tail recallsU
      have kept : Recalls root (u :: past) (u.after root) := (visited u.tracer u.observer).2.2
      exact ⟨bystander, fun key data read => kept key data (left key data read)⟩

/-- Sharing a store changes nothing in what runs tell about files, but that it was recalled and how
long it took. -/
theorem History.same_report (history : History root visits) (compatible : Compatible visits) :
    ∀ v ∈ visits, (v.answer (some (Visit.storeIn root))).2 = false ∧ (v.answer none).2 = false ∧
      (v.answer (some (Visit.storeIn root))).1.unstamped = (v.answer none).1.unstamped := by
  induction visits with
  | nil => simp
  | cons latest past ih =>
    intro v isOne
    rcases List.mem_cons.mp isOne with rfl | earlier
    · obtain ⟨bystander, recalls⟩ := history.recalls compatible
      have visited := Visit.ensures_checkFile_of_store bystander compatible recalls
      obtain ⟨finished, told, -⟩ := visited v.tracer v.observer
      obtain ⟨finishedToo, toldToo⟩ := Visit.answer_of_no_store bystander
      exact ⟨finished, finishedToo, told.trans toldToo.symm⟩
    · refine ih ?_ compatible.tail v earlier
      cases history with
      | first => exact .nil
      | next before => exact before

/-! ## Two visits of the same contents -/

/-- A module without a name, which is named for the file it is in. -/
def nameless : Handoff.Module := { patchy with name := [] }

def sharedRoot : Text := "/cache"

def firstVisit : Visit Unit where
  watcher := .none
  version := "1"
  path := "/one.mp"
  observer := ()
  machine := { tree := .directory [("one.mp", .file (Pack.encodeModule nameless))] }

/-- The entries of a directory with one file, and with what another tree has under the name of the
store. -/
def besideStore (t : Tree) : List (Text × Tree) :=
  ("two.mp", .file (Pack.encodeModule nameless)) ::
    ((t.find? ["cache"]).map fun store => (Text.ofString "cache", store)).toList

/-- The same contents under another name, on a machine of which only the store is left. -/
def secondVisit : Visit Unit where
  watcher := .none
  version := "1"
  path := "/two.mp"
  observer := ()
  machine := { firstVisit.after sharedRoot with
    tree := .directory (besideStore (firstVisit.after sharedRoot).tree) }

theorem read_first : firstVisit.machine.read firstVisit.path = .ok (Pack.encodeModule nameless) := rfl

theorem read_second : secondVisit.machine.read secondVisit.path = .ok (Pack.encodeModule nameless) := rfl

theorem found_patchy : checkAll (screen patchy.meaning).fit =
    [⟨"close", [.located .doubleFree 1 ⟨0, 0⟩ ⟨0, 1⟩]⟩] := by cbv

theorem place_sharedRoot {s : Memory} {key : Digest} {q : List Text}
    (resolved : s.resolve (Cache.Store.pathFor sharedRoot key) = .ok q) :
    q = Text.ofString "cache" :: [Text.ofString "results", Cache.Store.entryName key] := by
  rw [Cache.Store.pathFor_eq_written] at resolved
  have place := Memory.resolve_entry (Path.reduced_reducedElements _) Cache.Store.isElement_entryName
    Cache.Store.entryName_ne_upward resolved
  rw [place]
  rfl

/-- Nothing but what stands under the name of the store is found in it. -/
theorem look_besideStore {t : Tree} {rest : List Text} {v : Option Text}
    (found : (Tree.directory (besideStore t)).look ("cache" :: rest) = some v) :
    t.look ("cache" :: rest) = some v := by
  have other : (Text.ofString "cache" == Text.ofString "two.mp") = false := by decide
  rw [Tree.look_cons, besideStore, List.lookup_cons, other] at found
  cases t with
  | file data => simp [Tree.find?] at found
  | directory entries =>
    rw [Tree.look_cons]
    cases there : entries.lookup (Text.ofString "cache") with
    | none => simp [Tree.find?, there] at found
    | some store => simpa [Tree.find?, there] using found

theorem hasDirectory_besideStore {t : Tree} {p : List Text} {rest : List Text} {v : Option Text}
    (store : t.look (Text.ofString "cache" :: rest) = some v)
    (there : (Tree.directory (besideStore t)).HasDirectory p) : t.HasDirectory p := by
  cases p with
  | nil => exact Tree.hasDirectory_of_append (p := []) (by rw [List.nil_append, store]; simp)
  | cons name p =>
    by_cases same : name = Text.ofString "cache"
    · subst same
      exact look_besideStore there
    · -- all else is the one file
      exfalso
      rw [Tree.HasDirectory, Tree.look_cons, besideStore, List.lookup_cons] at there
      by_cases file : name = Text.ofString "two.mp"
      · cases p <;> simp [file, Tree.look, Tree.find?, Tree.data?] at there
      · cases entry : t.find? [Text.ofString "cache"] <;>
          simp [entry, beq_false_of_ne file, beq_false_of_ne same, List.lookup_cons] at there

theorem isBystander_none {ω κ : Type} : (Watcher.none : Watcher (Beside ω κ)).IsBystander :=
  ⟨fun _ _ _ => rfl, fun _ _ _ => rfl, fun _ _ => ⟨rfl, rfl⟩⟩

theorem history_visits : History sharedRoot [secondVisit, firstVisit] := by
  refine .next (.first isBystander_none ?_) isBystander_none ?_
  · intro key data read
    obtain ⟨q, resolved, found⟩ := Memory.read_eq_ok_iff.mp read
    rw [place_sharedRoot resolved] at found
    cases found
  · intro key data read
    obtain ⟨q, resolved, found⟩ := Memory.read_eq_ok_iff.mp read
    obtain rfl := place_sharedRoot resolved
    have store := look_besideStore found
    have kept : ∀ p, secondVisit.machine.tree.HasDirectory p →
      (firstVisit.after sharedRoot).tree.HasDirectory p := fun p => hasDirectory_besideStore store
    exact Memory.read_eq_ok_iff.mpr ⟨_, Memory.resolve_mono kept rfl resolved, store⟩

theorem read_nameless {path : Text} (packed : FileFormat.ofPath? path = some .msgpack) :
    File.read path (Pack.encodeModule nameless) = .ok (File.named path nameless) := by
  have short : nameless.IsShort := ⟨small (by decide), short_patchy.bodies⟩
  have decoded := Pack.decodeModule_encodeModule short []
  rw [List.append_nil] at decoded
  simp only [File.read, packed, FileFormat.read, FileFormat.readPacked, decoded]

/-- What a visit of the contents puts into the store is read back. -/
theorem readBack_nameless {v : Visit Unit} {m : Module}
    (read : v.machine.read v.path = .ok (Pack.encodeModule nameless))
    (packed : FileFormat.ofPath? v.path = some .msgpack) (version : Pack.IsSize v.version.length)
    (name : Pack.IsSize (Path.stem v.path).length) (loaded : v.loaded.module = .ok m) :
    Cache.Entry.decode? (v.entryFor m).encode =
      some { v.entryFor m with layout := Cache.currentLayout } := by
  rw [Visit.loaded, read, module_ofData (read_nameless packed)] at loaded
  obtain rfl := Except.ok.inj loaded
  have bodies : (File.named v.path nameless).meaning.bodies = patchy.meaning.bodies :=
    bodies_named v.path nameless
  have moduleName : (File.named v.path nameless).meaning.name = Path.stem v.path := rfl
  have violation : Cache.Recordable (.located .doubleFree 1 ⟨0, 0⟩ ⟨0, 1⟩) := by
    refine ⟨rfl, ?_, ?_, ?_, small (by decide), small (by decide), small (by decide)⟩ <;>
      decide
  have fit : (screen patchy.meaning).fit.length = 1 := by decide +kernel
  apply Cache.Entry.decode?_encode
  simp only [Visit.entryFor, Run.entryFor, screen_of_same_bodies bodies, found_patchy, moduleName, fit]
  refine ⟨name, version, by norm_num, ?_⟩
  rintro _ ⟨⟩
  refine ⟨small (by decide), ?_⟩
  simp only [List.mem_singleton, forall_eq]
  exact ⟨small (by decide), small (by decide), violation⟩

theorem compatible_visits : Compatible [secondVisit, firstVisit] := by
  have first := Visit.content?_of_read read_first
  have second := Visit.content?_of_read read_second
  have packedFirst : FileFormat.ofPath? firstVisit.path = some .msgpack := by decide +kernel
  have packedSecond : FileFormat.ofPath? secondVisit.path = some .msgpack := by decide +kernel
  have version : firstVisit.version = secondVisit.version := rfl
  refine ⟨?_, ?_, ?_, ?_⟩
  · simp [Collisionless, first, second]
  · simp [Collisionless, Visit.keyText?, first, second, version]
  · intro v isOne m loaded
    simp only [List.mem_cons, List.not_mem_nil, or_false] at isOne
    rcases isOne with rfl | rfl
    · exact readBack_nameless read_second packedSecond (small (by decide)) (small (by decide)) loaded
    · exact readBack_nameless read_first packedFirst (small (by decide)) (small (by decide)) loaded
  · simp [packedFirst, packedSecond]

theorem visits_same_report :
    History sharedRoot [secondVisit, firstVisit] ∧ Compatible [secondVisit, firstVisit] ∧
      secondVisit.loaded.module = .ok (File.named "/two.mp" nameless).meaning ∧
      (secondVisit.answer (some (Visit.storeIn sharedRoot))).1.unstamped =
        (secondVisit.answer none).1.unstamped := by
  have packed : FileFormat.ofPath? (Text.ofString "/two.mp") = some .msgpack := by decide +kernel
  have same := History.same_report history_visits compatible_visits secondVisit (by simp)
  exact ⟨history_visits, compatible_visits, module_ofData (read_nameless packed), same.2.2⟩

end Session

end BorrowChecker
