import Mathlib
import BorrowChecker.Cache.Store
import BorrowChecker.Proofs.Codecs
import BorrowChecker.Proofs.Conduct
import BorrowChecker.Proofs.Files
import BorrowChecker.Proofs.Quotation

/-!
What a store in a directory keeps. Main statements: asking for a key changes nothing and answers what
is kept in the file of that key (`Store.ensures_get`), and after an entry is put under a key, whatever
can be read from the file of any key was there before or is that entry under that key
(`Store.ensures_put`).
-/

namespace BorrowChecker

/-! ## Entries -/

namespace Cache

open Mir Ownership Pack

def Suitable (l : Location) : Prop :=
  (-0x80000000 ≤ l.block ∧ l.block < 0x80000000) ∧
    -0x8000000000000000 ≤ l.statement ∧ l.statement < 0x8000000000000000

instance (l : Location) : Decidable (Suitable l) := inferInstanceAs (Decidable (_ ∧ _))

structure Recordable (v : Violation) : Prop where
  kind : .ofCode v.kind.toCode = v.kind
  place : -0x80000000 ≤ v.place ∧ v.place < 0x80000000
  first : Suitable v.first
  second : Suitable v.second
  lifetime : IsSize v.lifetime.length
  bound : IsSize v.bound.name.length ∧ IsSize v.bound.outlives.length

structure Entry.IsShort (e : Entry) : Prop where
  module : IsSize e.module.length
  version : IsSize e.version.length
  bodies : -0x8000000000000000 ≤ e.bodies ∧ e.bodies < 0x8000000000000000
  findings : ∀ l ∈ e.findings, IsSize l.length ∧ ∀ f ∈ l, IsSize f.body.length ∧
    IsSize f.found.length ∧ ∀ v ∈ f.found, Recordable v

variable (fit : Fit)

theorem faithful_location : (location fit).Faithful Suitable :=
  .record (.cons (Codec.faithful_id32 fit) (fun _ suits => suits.1) <|
    .cons (Codec.faithful_count fit) (fun _ suits => suits.2) .nil) (fun _ _ _ => rfl) (by decide)

theorem faithful_bound : bound.Faithful fun b => IsSize b.name.length ∧ IsSize b.outlives.length :=
  .record (.cons Codec.faithful_text (fun _ short => short.1) <|
    .cons Codec.faithful_text (fun _ short => short.2) .nil) (fun _ _ _ => rfl) (by decide)

theorem faithful_violation : (violation fit).Faithful Recordable := by
  refine .record (.cons (Codec.faithful_uint8 fit) (fun _ _ => trivial) <|
    .cons (Codec.faithful_id32 fit) (fun _ suits => suits.place) <|
    .cons (faithful_location fit) (fun _ suits => suits.first) <|
    .cons (faithful_location fit) (fun _ suits => suits.second) <|
    .cons Codec.faithful_text (fun _ suits => suits.lifetime) <|
    .cons faithful_bound (fun _ suits => suits.bound) .nil) ?_ (by decide)
  intro old v suits
  simp only [suits.kind]

theorem faithful_findings : (findings fit).Faithful fun f => IsSize f.body.length ∧
    IsSize f.found.length ∧ ∀ v ∈ f.found, Recordable v := by
  refine .record (.cons Codec.faithful_text (fun _ suits => suits.1) <|
    .cons ((faithful_violation fit).items blankViolation) ?_ .nil) (fun _ _ _ => rfl) (by decide)
  rintro f suits _ ⟨⟩
  exact suits.2

theorem faithful_entry : (entry fit).Faithful Entry.IsShort :=
  .record (.cons (Codec.faithful_uint16 fit) (fun _ _ => trivial) <|
    .cons Codec.faithful_text (fun _ short => short.module) <|
    .cons Codec.faithful_text (fun _ short => short.version) <|
    .cons (Codec.faithful_count fit) (fun _ short => short.bodies) <|
    .cons ((faithful_findings fit).items ⟨[], []⟩) (fun _ short => short.findings) .nil)
    (fun _ _ _ => rfl) (by decide)

/-- An entry is read back in the current layout. -/
theorem Entry.decode?_encode {e : Entry} (short : e.IsShort) :
    Entry.decode? e.encode = some { e with layout := currentLayout } := by
  have current : Entry.IsShort { e with layout := currentLayout } :=
    ⟨short.module, short.version, short.bodies, short.findings⟩
  have faithful := faithful_entry .wrap
  have taken := Value.take?_encode (t := []) _ (faithful.fits _ current)
  rw [List.append_nil] at taken
  rw [decode?, encode, taken, Option.bind_some]
  exact faithful.reads _ _ current

end Cache

/-! ## Names of files -/

namespace Text

theorem hex_cons (b : UInt8) (t : Text) : hex (b :: t) = hexDigits 2 b.toNat ++ hex t := by
  rw [← hex_byte]
  simp [hex]

theorem hex_injective {s t : Text} (same : hex s = hex t) : s = t := by
  induction s generalizing t with
  | nil =>
    cases t with
    | nil => rfl
    | cons c t => simp [hex, hexByte] at same
  | cons b s ih =>
    cases t with
    | nil => simp [hex, hexByte] at same
    | cons c t =>
      rw [hex_cons, hex_cons] at same
      obtain ⟨first, rest⟩ := List.append_inj same (by simp [Quoted.length_hexDigits])
      have readBack : ∀ x : UInt8, Quoted.digits? 16 Quoted.hexValue? 2 0
          ((hexDigits 2 x.toNat).codePoints ++ []) = some x.toNat := fun x =>
        Quoted.digits?_hexDigits x.toNat_lt []
      have number : b.toNat = c.toNat := by
        have left := readBack b
        rw [first, readBack c] at left
        exact (Option.some.inj left).symm
      rw [UInt8.toNat_inj.mp number, ih rest]

theorem slash_not_mem_hex (t : Text) : Path.slash ∉ hex t := by
  induction t with
  | nil => simp [hex]
  | cons b t ih =>
    rw [hex_cons, List.mem_append, not_or]
    have noDigit : ¬ 48 ≤ Path.slash.toNat := by decide
    exact ⟨fun member => noDigit (hexDigits_bounds 2 b.toNat _ member).1, ih⟩

end Text

namespace Cache.Store

open BorrowChecker.Path

def entryName (key : Digest) : Text := key.print ++ ".mp"

/-- The name of the file that an entry is written to before it takes its place. -/
def scratchName : Text := "tmp-" ++ Text.ofNat 0

variable {key : Digest}

theorem length_entryName : 3 ≤ (entryName key).length := by
  rw [entryName, List.length_append]
  exact Nat.le_add_left 3 _

theorem isElement_entryName : IsElement (entryName key) := by
  have length : 3 ≤ (entryName key).length := length_entryName
  refine ⟨?_, ?_, ?_⟩
  · rintro same
    exact absurd length (by rw [same]; decide)
  · intro same
    exact absurd length (by rw [same]; decide)
  · rw [entryName, List.mem_append, not_or]
    exact ⟨Text.slash_not_mem_hex key.bytes, by decide⟩

theorem entryName_ne_upward : entryName key ≠ upward := by
  intro same
  have length : 3 ≤ (entryName key).length := length_entryName
  exact absurd length (by rw [same]; decide)

theorem scratchName_eq : scratchName = [116, 109, 112, 45, 48] := by
  rw [scratchName, Text.ofNat]
  rfl

theorem isElement_scratchName : IsElement scratchName := by
  rw [scratchName_eq]
  exact ⟨by decide, by decide, by decide⟩

theorem scratchName_ne_upward : scratchName ≠ upward := by
  rw [scratchName_eq]
  decide

theorem entryName_ne_scratchName : entryName key ≠ scratchName := by
  intro same
  have last := congrArg List.getLast? same
  rw [scratchName_eq, entryName, List.getLast?_append_of_ne_nil _ (by decide)] at last
  exact absurd last (by decide)

theorem entryName_injective {other : Digest} (same : entryName key = entryName other) : key = other := by
  have bytes : key.bytes = other.bytes := Text.hex_injective (List.append_cancel_right same)
  cases key
  cases other
  exact congrArg Digest.mk bytes

def shelfPath (root : Text) : Text := if root.isEmpty then "results" else root ++ slash :: "results"

theorem isElement_results : IsElement "results" := ⟨by decide, by decide, by decide⟩

theorem shelfPath_ne_nil (root : Text) : shelfPath root ≠ [] := by
  unfold shelfPath
  split
  · decide
  · simp

theorem shelf_ne_nil (root : Text) : reducedElements (shelfPath root) ≠ [] := by
  unfold shelfPath
  split
  · decide
  · next there =>
    rw [reducedElements_under (by simpa using there) isElement_results (by decide)]
    simp

/-- All entries of a store lie in one directory, each under a name of its own. -/
theorem pathFor_eq_written (root : Text) (key : Digest) : pathFor root key =
    written (isRooted (shelfPath root)) (reducedElements (shelfPath root) ++ [entryName key]) := by
  rw [← clean_under (shelfPath_ne_nil root) isElement_entryName entryName_ne_upward]
  show join [root, "results", entryName key] = _
  cases root <;> simp [join, shelfPath, Text.joined, List.intercalate, isElement_results.ne_nil,
    isElement_entryName.ne_nil]

end Cache.Store

/-! ## The machine that is a value -/

namespace Memory

open BorrowChecker.Path

variable {ω : Type} {s : Memory} {rooted : Bool} {shelf : List Text}

def Fewer (rooted : Bool) (shelf : List Text) (before after : Memory) : Prop :=
  ∀ e d, IsElement e → e ≠ upward → after.read (written rooted (shelf ++ [e])) = .ok d →
    before.read (written rooted (shelf ++ [e])) = .ok d

theorem ensures_change (f : Memory → Except FileFault Memory) :
    Ensures (change f : Beside ω Memory _) s fun answer after =>
      answer = .ok () ∧ f s = .ok after ∨ ∃ fault, answer = .error fault ∧ s = after := by
  intro o
  simp only [change, modifyGet, MonadStateOf.modifyGet, monadLift, MonadLift.monadLift, StateT.lift,
    StateT.modifyGet, bind, StateT.bind, pure, StateT.pure]
  cases f s with
  | ok after => exact .inl ⟨rfl, rfl⟩
  | error fault => exact .inr ⟨fault, rfl, rfl⟩

theorem ensures_read (path : Text) :
    Ensures (host.read path : Beside ω Memory _) s fun answer after =>
      answer = s.read path ∧ s = after := fun _ => ⟨rfl, rfl⟩

theorem ensures_kind (path : Text) :
    Ensures (host.kind path : Beside ω Memory _) s fun _ after => s = after := fun _ => rfl

/-- Making a directory and those that lead to it brings no file into it. -/
theorem ensures_makeDirectories (lead rest : List Text) (some : lead ≠ [])
    (reduced : Reduced rooted (lead ++ rest)) (s : Memory) :
    Ensures (host.makeDirectories (written rooted lead) : Beside ω Memory _) s fun _ after =>
      Fewer rooted (lead ++ rest) s after := by
  induction lead using List.reverseRecOn generalizing rest s with
  | nil => exact absurd rfl some
  | append_singleton before last ih =>
    rw [Host.makeDirectories]
    refine (ensures_kind _).bind ?_
    rintro kind _ rfl
    have fewer : Fewer rooted (before ++ [last] ++ rest) s s := fun _ _ _ _ read => read
    have element := reduced.each last (by simp)
    have making : ∀ w, Fewer rooted (before ++ [last] ++ rest) s w →
        Ensures (host.makeDirectory (written rooted (before ++ [last])) : Beside ω Memory _) w
          fun _ w' => Fewer rooted (before ++ [last] ++ rest) s w' := by
      intro w fewer
      refine (ensures_change _).mono ?_
      rintro _ w' (⟨-, made⟩ | ⟨_, -, rfl⟩)
      · intro e d element down read
        exact absurd read (read_makeDirectory (by simp) reduced element down made)
      · exact fewer
    rcases kind with _ | (_ | _)
    · dsimp only
      cases before with
      | nil =>
        rw [List.nil_append, dif_pos (lead_singleton element)]
        exact making s fewer
      | cons first inner =>
        have lead : Path.lead (written rooted (first :: inner ++ [last])) = _ :=
          lead_written (List.cons_ne_nil first inner) element
        have each := fun e member => reduced.left.left.each e member
        rw [dif_neg (by rw [lead]; exact written_ne_nil each (by simp)), lead]
        rw [List.append_assoc] at reduced
        refine (ih ([last] ++ rest) (by simp) reduced s).bind fun answer w fewer => ?_
        rw [← List.append_assoc] at fewer
        cases answer with
        | error fault => exact .pure fewer
        | ok _ => exact making w fewer
    · exact .pure fewer
    · exact .pure fewer

end Memory

namespace Cache.Store

open BorrowChecker.Path

variable {ω : Type} {s : Memory} {rooted : Bool} {shelf : List Text} {key : Digest} {data : Text}

/-- The scratch file of an entry lies beside it. -/
theorem scratch_written (reduced : Reduced rooted shelf) (some : shelf ≠ []) :
    join [parent (written rooted (shelf ++ [entryName key])), scratchName] =
      written rooted (shelf ++ [scratchName]) := by
  have there : written rooted shelf ≠ [] := written_ne_nil reduced.each some
  have under := clean_under there isElement_scratchName scratchName_ne_upward
  rw [isRooted_written reduced.each some, reducedElements_written reduced some] at under
  rw [parent_written reduced some isElement_entryName, ← under]
  simp [join, Text.joined, List.intercalate, there, isElement_scratchName.ne_nil]

/-- What can be read from the file of any key after bytes are put in the place of one: what was there,
or these bytes under that key. -/
def Adds (rooted : Bool) (shelf : List Text) (key : Digest) (data : Text) (before after : Memory) :
    Prop :=
  ∀ key' d, after.read (written rooted (shelf ++ [entryName key'])) = .ok d →
    key' = key ∧ d = data ∨ before.read (written rooted (shelf ++ [entryName key'])) = .ok d

theorem ensures_replace (reduced : Reduced rooted shelf) (some : shelf ≠ []) :
    Ensures (Memory.host.replace (written rooted (shelf ++ [entryName key])) "tmp-" data :
        Beside ω Memory _) s fun _ after => Adds rooted shelf key data s after := by
  have clock : Ensures (Memory.host.clock : Beside ω Memory _) s fun nanos after =>
      nanos = 0 ∧ s = after := fun _ => ⟨rfl, rfl⟩
  have scratch : join [parent (written rooted (shelf ++ [entryName key])), "tmp-" ++ Text.ofNat 0] =
    written rooted (shelf ++ [scratchName]) := scratch_written reduced some
  unfold Host.replace
  refine clock.bind ?_
  rintro _ _ ⟨rfl, rfl⟩
  simp only [scratch]
  refine (Memory.ensures_change _).bind ?_
  rintro _ s₁ (⟨rfl, wrote⟩ | ⟨fault, rfl, rfl⟩)
  case inr => exact .pure fun _ _ read => .inr read
  have beside : ∀ key' d, s₁.read (written rooted (shelf ++ [entryName key'])) = .ok d →
      s.read (written rooted (shelf ++ [entryName key'])) = .ok d := fun key' d =>
    Memory.read_written_beside reduced isElement_entryName entryName_ne_upward isElement_scratchName
      scratchName_ne_upward entryName_ne_scratchName wrote
  refine (Memory.ensures_change _).bind ?_
  rintro _ s₂ (⟨rfl, moved⟩ | ⟨fault, rfl, rfl⟩)
  · refine .pure fun key' d read => ?_
    rcases Memory.read_replaced reduced isElement_entryName entryName_ne_upward isElement_entryName
      entryName_ne_upward isElement_scratchName scratchName_ne_upward entryName_ne_scratchName wrote
      moved read with ⟨same, rfl⟩ | before
    · exact .inl ⟨entryName_injective same, rfl⟩
    · exact .inr before
  · -- the scratch file is of no use any more
    have removing : Ensures (discard (Memory.host.remove (written rooted (shelf ++ [scratchName]))) :
        Beside ω Memory _) s₁ fun _ after => Adds rooted shelf key data s after := by
      refine Ensures.discard ((Memory.ensures_change _).mono ?_)
      rintro _ s₂ (⟨-, removed⟩ | ⟨_, -, rfl⟩) key' d read
      · exact .inr (beside key' d (Memory.read_of_remove removed read))
      · exact .inr (beside key' d read)
    exact removing.bind fun _ _ adds => .pure adds

/-- Asking for a key changes nothing. -/
theorem ensures_get (root : Text) (key : Digest) :
    Ensures ((inDirectory Memory.host root).get key : Beside ω Memory _) s fun answer after =>
      s = after ∧ ∀ e, answer = .hit e → ∃ data, s.read (pathFor root key) = .ok data ∧
        Lookup.ofBytes data = .hit e := by
  unfold inDirectory
  refine (Memory.ensures_read _).bind ?_
  rintro _ _ ⟨rfl, rfl⟩
  cases s.read (pathFor root key) with
  | ok data => exact .pure ⟨rfl, fun e hit => ⟨data, rfl, hit⟩⟩
  | error fault =>
    refine .pure ⟨rfl, fun e hit => ?_⟩
    split at hit <;> cases hit

/-- Whatever can be read from the file of a key after an entry is put under one was there before, or
is that entry under that key. -/
theorem ensures_put (root : Text) (key : Digest) (e : Entry) :
    Ensures ((inDirectory Memory.host root).put key e : Beside ω Memory _) s fun _ after =>
      ∀ key' data, after.read (pathFor root key') = .ok data →
        key' = key ∧ data = e.encode ∨ s.read (pathFor root key') = .ok data := by
  have reduced := reduced_reducedElements (shelfPath root)
  have some := shelf_ne_nil root
  simp only [inDirectory, pathFor_eq_written, parent_written reduced some isElement_entryName]
  generalize isRooted (shelfPath root) = rooted at reduced ⊢
  generalize reducedElements (shelfPath root) = shelf at reduced some ⊢
  have making : Ensures (Memory.host.makeDirectories (written rooted shelf) : Beside ω Memory _) s
      fun _ after => Memory.Fewer rooted shelf s after := by
    have made := Memory.ensures_makeDirectories (ω := ω) shelf [] some (by simpa using reduced) s
    simpa using made
  refine making.bind fun answer s₁ fewer => ?_
  have before : ∀ key' data, s₁.read (written rooted (shelf ++ [entryName key'])) = .ok data →
      s.read (written rooted (shelf ++ [entryName key'])) = .ok data := fun key' data =>
    fewer _ _ isElement_entryName entryName_ne_upward
  cases answer with
  | error fault => exact .pure fun key' data read => .inr (before key' data read)
  | ok _ =>
    refine (ensures_replace reduced some).mono fun _ after adds key' data read => ?_
    exact (adds key' data read).imp_right (before key' data)

end Cache.Store

end BorrowChecker
