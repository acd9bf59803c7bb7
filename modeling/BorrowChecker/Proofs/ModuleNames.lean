import BorrowChecker.Proofs.LineNames
import BorrowChecker.Written.Module
import Mathlib

/-!
The names of a module that is read. Every name but the lifetimes inside types is put in composed
form; the lifetimes inside types are kept as they are written. So all names of the module are in
composed form exactly when the lifetimes that its types are written with already were, and a lifetime
that is not in composed form is another one in a type than where it is declared.
-/

namespace BorrowChecker

namespace Mir

def Block.names (block : Block) : List Text :=
  block.name :: block.statements.flatMap Statement.names ++ block.term.names

def LocalDecl.names (l : LocalDecl) : List Text := l.name :: l.lifetime :: l.type.names

def Bound.names (bound : Bound) : List Text := [bound.name, bound.outlives]

namespace Body

/-- The names of a body, save the lifetimes in its types. -/
def names (b : Body) : List Text :=
  b.name :: b.params.flatMap Ty.names ++ b.result.names ++ b.locals.flatMap LocalDecl.names ++
    b.blocks.flatMap Block.names ++ b.lifetimeParams ++ b.lifetimeBounds.flatMap Bound.names

def typeLifetimes (b : Body) : List Text :=
  b.params.flatMap Ty.lifetimes ++ b.result.lifetimes ++
    b.locals.flatMap (fun l => l.type.lifetimes) ++
    b.blocks.flatMap fun block => block.statements.flatMap Statement.lifetimes

end Body

namespace Module

def names (m : Module) : List Text := m.name :: m.bodies.flatMap fun b => b.toList.flatMap Body.names

def typeLifetimes (m : Module) : List Text :=
  m.bodies.flatMap fun b => b.toList.flatMap Body.typeLifetimes

end Module

end Mir

namespace Written

open Mir Source Text

theorem trim_of_solid {text : Text}
    (solid : ∀ c ∈ text.codePoints, CodePoint.isBlank c.value = false) : text.trim = text := by
  have keeps : ∀ points : List CodePoint, (∀ c ∈ points, CodePoint.isBlank c.value = false) →
      points.dropWhile (fun c => CodePoint.isBlank c.value) = points := by
    intro points all
    cases points with
    | nil => rfl
    | cons c rest => rw [List.dropWhile_cons_of_neg (by simp [all c (List.mem_cons_self ..)])]
  rw [trim, keeps _ solid, keeps _ fun c member => solid c (List.mem_reverse.mp member),
    List.reverse_reverse, ofCodePoints_codePoints]

/-- A lifetime declared with its apostrophe is put in composed form. -/
theorem lifetimeName_quoted {name : Text} (valid : isLifetime name) :
    lifetimeName (39 :: name) = name.normalize := by
  rw [isLifetime, Bool.and_eq_true, List.all_eq_true] at valid
  have whole : trim (39 :: name) = 39 :: name := by
    refine trim_of_solid ?_
    rw [codePoints_ascii_cons (by decide), List.forall_mem_cons]
    exact ⟨by decide, fun c member => solid_of_isNamePoint (valid.2 c member)⟩
  have cut : cutStart "'" (39 :: name) = some name := rfl
  rw [lifetimeName, whole, cut, Option.getD_some]

section Results

variable {ε α γ : Type}

theorem mem_valuesOf {results : List (Except ε α)} {value : α} :
    value ∈ valuesOf results ↔ .ok value ∈ results := by
  induction results with
  | nil => simp [valuesOf, sorted]
  | cons result rest ih =>
      unfold valuesOf at ih ⊢
      cases result with
      | error e => simpa [sorted] using ih
      | ok a => simp [sorted, ih]

theorem isNormal_of_values {lines : List γ} {read : Nat → γ → Except ε α} {f : α → List Text}
    (each : ∀ i line value, read i line = .ok value → ∀ name ∈ f value, name.IsNormal) :
    ∀ name ∈ (valuesOf (lines.mapIdx read)).flatMap f, name.IsNormal := by
  intro name member
  obtain ⟨value, inside, last⟩ := List.mem_flatMap.mp member
  obtain ⟨i, index, given⟩ := List.mem_mapIdx.mp (mem_valuesOf.mp inside)
  exact each i _ value given name last

/-- Without faults, every line has its value. -/
theorem forall₂_valuesOf {lines : List γ} {read : Nat → γ → Except ε α}
    (clean : faultsOf (lines.mapIdx read) = []) :
    List.Forall₂ (fun line value => ∃ i, read i line = .ok value) lines
      (valuesOf (lines.mapIdx read)) := by
  induction lines generalizing read with
  | nil => exact .nil
  | cons line rest ih =>
      rw [List.mapIdx_cons] at clean ⊢
      cases first : read 0 line with
      | error e => simp [faultsOf, sorted, first] at clean
      | ok value =>
          have later : faultsOf (rest.mapIdx fun i => read (i + 1)) = [] := by
            simpa [faultsOf, sorted, first] using clean
          refine .cons ⟨0, first⟩ ((ih later).imp ?_)
          rintro other result ⟨i, given⟩
          exact ⟨i + 1, given⟩

theorem flatMap_of_forall₂ {R : γ → α → Prop} {lines : List γ} {values : List α}
    (all : List.Forall₂ R lines values) {f : α → List Text} {g : γ → List Text}
    (same : ∀ line value, R line value → f value = g line) :
    values.flatMap f = lines.flatMap g := by
  induction all with
  | nil => rfl
  | cons first _ ih => rw [List.flatMap_cons, List.flatMap_cons, same _ _ first, ih]

theorem ok_of_withContext {δ : Type} {context : ε → δ} {result : Except ε α} {value : α}
    (given : withContext context result = .ok value) : result = .ok value := by
  cases result with
  | error e => simp [withContext] at given
  | ok a => simpa [withContext] using given

theorem faultsOf_singleton {result : Except ε α} (clean : faultsOf [result] = []) :
    ∃ value, result = .ok value ∧ valuesOf [result] = [value] := by
  cases result with
  | error e => simp [faultsOf, sorted] at clean
  | ok a => exact ⟨a, rfl, rfl⟩

theorem forall₂_mapIdx {lines : List γ} {make : Nat → γ → α} {faults : Nat → γ → List ε}
    (clean : (lines.mapIdx faults).flatten = []) :
    List.Forall₂ (fun line value => ∃ i, value = make i line ∧ faults i line = []) lines
      (lines.mapIdx make) := by
  induction lines generalizing make faults with
  | nil => exact .nil
  | cons line rest ih =>
      rw [List.mapIdx_cons, List.flatten_cons, List.append_eq_nil_iff] at clean
      rw [List.mapIdx_cons]
      refine .cons ⟨0, rfl, clean.1⟩ ((ih clean.2).imp ?_)
      rintro other result ⟨i, same, none_⟩
      exact ⟨i + 1, same, none_⟩

end Results

namespace Body

def typeLifetimes (b : Body) : List Text :=
  b.params.flatMap lineLifetimes ++
    (if b.result.trim.isEmpty then [] else lineLifetimes b.result) ++
    b.locals.flatMap (fun l => lineLifetimes l.type) ++
    b.blocks.flatMap fun block => block.statements.flatMap lineLifetimes

variable {b : Body}

theorem parsed_of_readLocal {index : Nat} {l : LocalDecl} {decl : Mir.LocalDecl}
    (read : readLocal index l = .ok decl) : parseType l.type = .ok decl.type ∧
      decl.name = l.name.normalize ∧ decl.lifetime = lifetimeName l.lifetime := by
  unfold readLocal at read
  cases parsed : parseType l.type with
  | error fault => simp [parsed, withContext, Except.map] at read
  | ok t =>
      simp only [parsed, withContext, Except.map, Except.ok.injEq] at read
      subst read
      exact ⟨rfl, rfl, rfl⟩

theorem faithful_readResult {t : Ty} (read : b.readResult = .ok t) :
    FaithfulType t (if b.result.trim.isEmpty then [] else lineLifetimes b.result) := by
  unfold readResult at read
  split_ifs at read ⊢ with blank
  · obtain rfl := Except.ok.inj read
    exact faithful_scalar rfl
  · exact parseType_faithful (ok_of_withContext read)

theorem readBlock_names (b : Body) (index : Nat) (block : Block) :
    ∀ name ∈ (b.readBlock index block).names, name.IsNormal := by
  rw [Mir.Block.names, List.forall_mem_append, List.forall_mem_cons]
  refine ⟨⟨isNormal_normalize _, isNormal_of_values fun _ _ _ read => ?_⟩, fun name member => ?_⟩
  · exact (parseStatement_faithful (ok_of_withContext read)).1
  · cases read : b.readTerminator index block with
    | error fault =>
        simp [readBlock, read, valuesOf, sorted, Terminator.names] at member
    | ok t =>
        simp only [readBlock, read, valuesOf, sorted, List.head?_cons, Option.getD_some] at member
        rw [readTerminator] at read
        split_ifs at read
        exact parseTerminator_names (ok_of_withContext read) name member

/-- Whatever a body is read as, its names are in composed form. -/
theorem readable_names (b : Body) : ∀ name ∈ b.readable.names, name.IsNormal := by
  have params : ∀ name ∈ b.readable.params.flatMap Ty.names, name.IsNormal :=
    isNormal_of_values fun _ _ _ read => (parseType_faithful (ok_of_withContext read)).1
  have result : ∀ name ∈ b.readable.result.names, name.IsNormal := by
    cases read : b.readResult with
    | error fault =>
        have same : b.readable.result = .unit := by simp [readable, read, valuesOf, sorted]
        rw [same]
        exact (faithful_scalar rfl).1
    | ok t =>
        have same : b.readable.result = t := by simp [readable, read, valuesOf, sorted]
        rw [same]
        exact (faithful_readResult read).1
  have locals : ∀ name ∈ b.readable.locals.flatMap Mir.LocalDecl.names, name.IsNormal := by
    refine isNormal_of_values fun _ l decl read => ?_
    obtain ⟨parsed, named, tagged⟩ := parsed_of_readLocal read
    rw [Mir.LocalDecl.names, named, tagged, List.forall_mem_cons, List.forall_mem_cons]
    exact ⟨isNormal_normalize _, isNormal_normalize _, (parseType_faithful parsed).1⟩
  have blocks : ∀ name ∈ b.readable.blocks.flatMap Mir.Block.names, name.IsNormal := by
    intro name member
    obtain ⟨block, inside, last⟩ := List.mem_flatMap.mp member
    obtain ⟨i, index, rfl⟩ := List.mem_mapIdx.mp inside
    exact readBlock_names b i _ name last
  have declared : ∀ name ∈ b.readable.lifetimeParams, name.IsNormal := by
    intro name member
    obtain ⟨text, -, rfl⟩ := List.mem_map.mp member
    exact isNormal_normalize _
  have bounds : ∀ name ∈ b.readable.lifetimeBounds.flatMap Mir.Bound.names, name.IsNormal := by
    intro name member
    obtain ⟨bound, inside, last⟩ := List.mem_flatMap.mp member
    obtain ⟨line, -, read⟩ := List.mem_map.mp (mem_valuesOf.mp inside)
    generalize withContext (Fault.bound line) (parseBound line) = outcome at read
    cases outcome with
    | error fault => simp [Except.map] at read
    | ok original =>
        obtain rfl := Except.ok.inj read
        simp only [Mir.Bound.names, normalBound, List.mem_cons, List.not_mem_nil, or_false] at last
        rcases last with rfl | rfl
        · exact isNormal_normalize _
        · exact isNormal_normalize _
  simp only [Mir.Body.names, List.forall_mem_append, List.forall_mem_cons]
  exact ⟨⟨⟨⟨⟨⟨isNormal_normalize _, params⟩, result⟩, locals⟩, blocks⟩, declared⟩, bounds⟩

theorem readable_typeLifetimes (clean : b.faults = []) :
    b.readable.typeLifetimes = b.typeLifetimes := by
  simp only [faults, List.append_eq_nil_iff] at clean
  obtain ⟨⟨⟨⟨⟨params, result⟩, -⟩, locals⟩, -⟩, blocks⟩ := clean
  have inputs : b.readable.params.flatMap Ty.lifetimes = b.params.flatMap lineLifetimes := by
    refine flatMap_of_forall₂ (forall₂_valuesOf params) ?_
    rintro line t ⟨i, read⟩
    exact (parseType_faithful (ok_of_withContext read)).2.symm
  have output : b.readable.result.lifetimes =
      if b.result.trim.isEmpty then [] else lineLifetimes b.result := by
    obtain ⟨t, read, value⟩ := faultsOf_singleton result
    have same : b.readable.result = t := by simp [readable, value]
    rw [same]
    exact (faithful_readResult read).2.symm
  have slots : b.readable.locals.flatMap (fun l => l.type.lifetimes) =
      b.locals.flatMap fun l => lineLifetimes l.type := by
    refine flatMap_of_forall₂ (forall₂_valuesOf locals) ?_
    rintro l decl ⟨i, read⟩
    exact (parseType_faithful (parsed_of_readLocal read).1).2.symm
  have casts : b.readable.blocks.flatMap (fun block => block.statements.flatMap Statement.lifetimes) =
      b.blocks.flatMap fun block => block.statements.flatMap lineLifetimes := by
    refine flatMap_of_forall₂ (forall₂_mapIdx blocks) ?_
    rintro block _ ⟨i, rfl, none_⟩
    refine flatMap_of_forall₂ (forall₂_valuesOf (List.append_eq_nil_iff.mp none_).1) ?_
    rintro line s ⟨j, read⟩
    exact (parseStatement_faithful (ok_of_withContext read)).2.symm
  rw [Mir.Body.typeLifetimes, typeLifetimes, inputs, output, slots, casts]

end Body

namespace Module

def typeLifetimes (m : Module) : List Text := m.bodies.flatMap Body.typeLifetimes

theorem isLifetime_of_mem {m : Module} {name : Text} (member : name ∈ m.typeLifetimes) :
    isLifetime name := by
  obtain ⟨b, -, inside⟩ := List.mem_flatMap.mp member
  simp only [Body.typeLifetimes, List.mem_append, List.mem_flatMap] at inside
  rcases inside with ((⟨line, -, last⟩ | result) | ⟨l, -, last⟩) | ⟨block, -, line, -, last⟩
  · exact isLifetime_of_mem_line last
  · split_ifs at result
    · simp at result
    · exact isLifetime_of_mem_line result
  · exact isLifetime_of_mem_line last
  · exact isLifetime_of_mem_line last

variable {m : Module} {r : Mir.Module}

theorem read_eq (accepted : m.read = .ok r) :
    r = ⟨m.name.normalize, m.bodies.map fun b => some b.readable⟩ ∧
      ∀ b ∈ m.bodies, b.faults = [] := by
  unfold read at accepted
  dsimp only at accepted
  split_ifs at accepted with clean
  obtain rfl := Except.ok.inj accepted
  have each := forall₂_valuesOf (List.isEmpty_iff.mp clean)
  change List.Forall₂ _ m.bodies (valuesOf m.readBodies) at each
  generalize valuesOf m.readBodies = bodies at each ⊢
  have whole : bodies = m.bodies.map Body.readable ∧ ∀ b ∈ m.bodies, b.faults = [] := by
    generalize m.bodies = written at each
    induction each with
    | nil => simp
    | cons first _ ih =>
        obtain ⟨i, given⟩ := first
        have read := ok_of_withContext given
        unfold Body.read at read
        split_ifs at read with none_
        obtain rfl := Except.ok.inj read
        exact ⟨by rw [ih.1, List.map_cons],
          List.forall_mem_cons.mpr ⟨List.isEmpty_iff.mp none_, ih.2⟩⟩
  rw [whole.1, List.map_map]
  exact ⟨rfl, whole.2⟩

theorem read_of_clean (clean : ∀ b ∈ m.bodies, b.faults = []) :
    m.read = .ok ⟨m.name.normalize, m.bodies.map fun b => some b.readable⟩ := by
  have results : m.readBodies = (m.bodies.map Body.readable).map .ok := by
    refine List.ext_getElem (by simp [readBodies]) fun i _ inside => ?_
    simp [readBodies, Body.read, clean _ (List.getElem_mem _), withContext]
  have sorts : ∀ bodies : List Mir.Body, @sorted BodyFaults Mir.Body (bodies.map .ok) = ([], bodies) := by
    intro bodies
    induction bodies with
    | nil => rfl
    | cons body rest ih => rw [List.map_cons, sorted, ih]
  rw [read, results, faultsOf, valuesOf, sorts, List.map_map]
  rfl

/-- Every name of a module that is read is in composed form, save the lifetimes in its types, which
are those it is written with. So all names are in composed form exactly when those lifetimes were;
each of them would be declared in composed form. -/
theorem names_normal_iff (accepted : m.read = .ok r) :
    (∀ name ∈ r.names, name.IsNormal) ∧ r.typeLifetimes = m.typeLifetimes ∧
    ((∀ name ∈ r.names ++ r.typeLifetimes, name.IsNormal) ↔
      ∀ name ∈ m.typeLifetimes, name.IsNormal) ∧
    ∀ name ∈ m.typeLifetimes, lifetimeName (39 :: name) = name.normalize := by
  obtain ⟨rfl, clean⟩ := read_eq accepted
  have names : ∀ name ∈ Mir.Module.names ⟨m.name.normalize, m.bodies.map fun b => some b.readable⟩,
      name.IsNormal := by
    rw [Mir.Module.names, List.forall_mem_cons]
    refine ⟨isNormal_normalize _, fun name member => ?_⟩
    obtain ⟨o, inside, later⟩ := List.mem_flatMap.mp member
    obtain ⟨b, -, rfl⟩ := List.mem_map.mp inside
    exact Body.readable_names b name (by simpa using later)
  have lifetimes : Mir.Module.typeLifetimes
      ⟨m.name.normalize, m.bodies.map fun b => some b.readable⟩ = m.typeLifetimes := by
    rw [Mir.Module.typeLifetimes, List.flatMap_map]
    refine List.flatMap_congr fun b member => ?_
    simpa using Body.readable_typeLifetimes (clean b member)
  refine ⟨names, lifetimes, ?_, fun name member => lifetimeName_quoted (isLifetime_of_mem member)⟩
  rw [List.forall_mem_append, lifetimes]
  exact ⟨And.right, fun normal => ⟨names, normal⟩⟩

/-- A syllable written as its two letters. -/
def splitSyllable : Text := CodePoint.encode 0x1100 ++ CodePoint.encode 0x1161

theorem letters_isLetter : [0x1100, 0x1161].all CodePoint.isLetter := by
  unfold CodePoint.isLetter CodePoint.letterTable CodePoint.ranges
  rw [String.toList_ofList]
  decide +kernel

theorem combiningClass_vowel : CodePoint.combiningClass 0x1161 = 0 := by
  refine CodePoint.combiningClass_eq_zero ?_
  rw [← CodePoint.testBit_bitsWithin]
  unfold CodePoint.classTable CodePoint.ranges
  repeat rw [String.toList_ofList]
  decide +kernel

theorem runsFit_pair (u v : Nat) : Normal.RunsFit 0 [u, v] := by
  have first := CodePoint.leadingMarks_le u
  have between := CodePoint.trailingMarks_le u
  have second := CodePoint.leadingMarks_le v
  simp only [Normal.RunsFit, Normal.runAfter, Normal.maxMarks, and_true]
  split_ifs <;> omega

open BorrowChecker.Normal in
theorem normalize_splitSyllable : splitSyllable.normalize = CodePoint.encode 0xAC00 := by
  have points : splitSyllable.codePoints = [.ofValue 0x1100, .ofValue 0x1161] := by decide
  have settled : ∀ c ∈ [CodePoint.ofValue 0x1100, .ofValue 0x1161],
      CodePoint.decomposition c.value = [] := by
    intro c member
    simp only [List.mem_cons, List.not_mem_nil, or_false] at member
    rcases member with rfl | rfl
    · exact CodePoint.decomposition_letter (by decide)
    · exact CodePoint.decomposition_letter (by decide)
  have short : RunsFit 0 ([CodePoint.ofValue 0x1100, .ofValue 0x1161].map CodePoint.value) :=
    runsFit_pair _ _
  have order : [CodePoint.ofValue 0x1100, .ofValue 0x1161].IsChain InOrder :=
    List.isChain_cons_cons.mpr ⟨fun mark => absurd combiningClass_vowel mark, .singleton _⟩
  have joined : CodePoint.composite? 0x1100 0x1161 = some 0xAC00 := by decide
  rw [Text.normalize, if_neg (by decide), points, breakRuns_of_runsFit short,
    decomposeAll_of_settled settled, reorder_of_inOrder order]
  simp [compose, composeFrom, CodePoint.ofValue, joined, ofCodePoints]

/-- Lines in ASCII under a name that is not in composed form. -/
def renamedModule : Module where
  name := splitSyllable
  bodies := [{
    name := "f", params := ["&'a S"], result := "&'a S", lifetimes := ["'a"],
    locals := [{ type := "&'a S" }, { name := "x", type := "(&'a S,)" }],
    blocks := [{ statements := ["_0 = cast copy _1 as &'a S"], term := "return" }] }]

theorem renamedModule_clean : ∀ b ∈ renamedModule.bodies, b.faults = [] := by
  have all : renamedModule.bodies.map Body.faults = [[]] := by cbv
  simpa [renamedModule] using all

theorem renamedModule_names : ∃ r, renamedModule.read = .ok r ∧
    r.name = CodePoint.encode 0xAC00 ∧ r.typeLifetimes = List.replicate 5 ("a" : Text) ∧
    ∀ name ∈ r.names ++ r.typeLifetimes, name.IsNormal := by
  have accepted := read_of_clean renamedModule_clean
  obtain ⟨-, lifetimes, normal, -⟩ := names_normal_iff accepted
  have written : renamedModule.typeLifetimes = List.replicate 5 ("a" : Text) := by cbv
  refine ⟨_, accepted, ?_, lifetimes.trans written, normal.mpr ?_⟩
  · dsimp only
    rw [renamedModule, normalize_splitSyllable]
  · rw [written]
    decide

/-- A body whose result has a lifetime that is declared, both written as letters. -/
def splitBody : Body where
  name := "f"
  params := ["&'a S"]
  result := "&'" ++ splitSyllable ++ " S"
  lifetimes := ["'a", 39 :: splitSyllable]

theorem isLifetime_splitSyllable : isLifetime splitSyllable := by
  have points : splitSyllable.codePoints = [.ofValue 0x1100, .ofValue 0x1161] := by decide
  have letters := letters_isLetter
  simp only [List.all_cons, List.all_nil, Bool.and_true, Bool.and_eq_true] at letters
  rw [isLifetime, points]
  simp [isNamePoint, CodePoint.ofValue, letters]
  decide

theorem parseType_split : parseType splitBody.result =
    .ok (.refWithLifetime splitSyllable (.structNamed "S") false) := by
  have named : ∀ name ∈ (Ty.refWithLifetime splitSyllable (.structNamed "S") false).names,
      isName name := by
    rw [Ty.names_refWithLifetime, Ty.names_structNamed]
    decide
  refine (parseType_print_iff (.refWithLifetime false isLifetime_splitSyllable
    (.struct (by decide) (by decide) (by decide))) (wordlike_of_isName named)).mpr ⟨named, ?_⟩
  decide

theorem splitBody_readResult : splitBody.readResult =
    .ok (.refWithLifetime splitSyllable (.structNamed "S") false) := by
  rw [Body.readResult, if_neg (by decide), parseType_split, withContext]

theorem splitBody_faults : splitBody.faults = [] := by
  have params : faultsOf splitBody.readParams = [] := by cbv
  rw [Body.faults, params, splitBody_readResult]
  rfl

/-- What the body is read as: the lifetime is composed where it is declared, and only there. -/
theorem splitBody_readable : splitBody.readable =
    { name := "f", params := [.refWithLifetime "a" (.structNamed "S") false]
      result := .refWithLifetime splitSyllable (.structNamed "S") false
      lifetimeParams := [("a" : Text), CodePoint.encode 0xAC00] } := by
  have params : valuesOf splitBody.readParams = [.refWithLifetime "a" (.structNamed "S") false] := by
    cbv
  have declared : splitBody.lifetimes.map lifetimeName = [("a" : Text), CodePoint.encode 0xAC00] := by
    rw [splitBody, List.map_cons, List.map_singleton, lifetimeName_quoted isLifetime_splitSyllable,
      normalize_splitSyllable]
    rfl
  rw [Body.readable, params, splitBody_readResult, declared]
  rfl

theorem splitLifetime_undeclared : ∃ m : Module, ∃ b : Mir.Body,
    m.read = .ok ⟨"m", [some b]⟩ ∧ splitSyllable ∈ b.typeLifetimes ∧ ¬ splitSyllable.IsNormal ∧
    lifetimeName (39 :: splitSyllable) ∈ b.lifetimeParams ∧
    Ownership.lifetimeViolations b = [.undeclared splitSyllable ⟨splitSyllable, "a"⟩] := by
  have clean : ∀ b ∈ [splitBody], b.faults = [] := List.forall_mem_singleton.mpr splitBody_faults
  have accepted := @read_of_clean ⟨"m", [splitBody]⟩ clean
  refine ⟨⟨"m", [splitBody]⟩, splitBody.readable, accepted, ?_⟩
  rw [splitBody_readable, lifetimeName_quoted isLifetime_splitSyllable, IsNormal,
    normalize_splitSyllable]
  decide

end Module

end Written

end BorrowChecker
