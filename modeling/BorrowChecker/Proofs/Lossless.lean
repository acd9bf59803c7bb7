import BorrowChecker.Mir.Dump
import BorrowChecker.Mir.Flaw
import BorrowChecker.Handoff.Meaning
import BorrowChecker.Ownership.Check
import BorrowChecker.Pack.Envelope
import BorrowChecker.Proofs.Codecs
import Mathlib

/-!
Nothing is lost when a module is packed. Every hand-off record is read back as it was written, fields
of unused kinds and absent lists included, as long as its texts and lists have a size that can be
written. So a packed module is read back from its bytes, whatever follows them.
-/

namespace BorrowChecker

namespace Handoff

open Pack

/-- A list, if it is there, has a size that can be written, and so has each member what it needs. -/
def Slice.Each {α : Type} (Suits : α → Prop) (s : Slice α) : Prop :=
  ∀ l ∈ s, IsSize l.length ∧ ∀ a ∈ l, Suits a

inductive Ty.IsShort : Ty → Prop
  | mk {t : Ty} (name : IsSize t.name.length) (lifetime : IsSize t.lifetime.length)
      (elem : ∀ e ∈ t.elem, IsShort e)
      (elems : ∀ l ∈ t.elems, IsSize l.length) (eachElem : ∀ l ∈ t.elems, ∀ e ∈ l, IsShort e)
      (params : ∀ l ∈ t.params, IsSize l.length) (eachParam : ∀ l ∈ t.params, ∀ e ∈ l, IsShort e)
      (result : ∀ e ∈ t.result, IsShort e) : IsShort t

def Const.IsShort (c : Const) : Prop := IsSize c.str.length

def Operand.IsShort (op : Operand) : Prop := op.const.IsShort

@[mk_iff]
structure Binary.IsShort (b : Binary) : Prop where
  left : b.left.IsShort
  right : b.right.IsShort

def Unary.IsShort (u : Unary) : Prop := u.value.IsShort

@[mk_iff]
structure Aggregate.IsShort (a : Aggregate) : Prop where
  name : IsSize a.name.length
  elems : a.elems.Each Operand.IsShort

@[mk_iff]
structure Cast.IsShort (c : Cast) : Prop where
  value : c.value.IsShort
  target : c.target.IsShort

@[mk_iff]
structure RValue.IsShort (r : RValue) : Prop where
  use : r.use.IsShort
  binary : r.binary.IsShort
  unary : r.unary.IsShort
  aggregate : r.aggregate.IsShort
  cast : r.cast.IsShort

def Statement.IsShort (s : Statement) : Prop := s.assign.src.IsShort

@[mk_iff]
structure SwitchInt.IsShort (s : SwitchInt) : Prop where
  discr : s.discr.IsShort
  cases : s.cases.Each Always

@[mk_iff]
structure Call.IsShort (c : Call) : Prop where
  func : IsSize c.func.length
  args : c.args.Each Operand.IsShort

@[mk_iff]
structure Assert.IsShort (a : Assert) : Prop where
  cond : a.cond.IsShort
  msg : IsSize a.msg.length

@[mk_iff]
structure Terminator.IsShort (t : Terminator) : Prop where
  switchInt : t.switchInt.IsShort
  call : t.call.IsShort
  assert : t.assert.IsShort

@[mk_iff]
structure Block.IsShort (b : Block) : Prop where
  name : IsSize b.name.length
  statements : b.statements.Each Statement.IsShort
  term : b.term.IsShort

@[mk_iff]
structure LocalDecl.IsShort (l : LocalDecl) : Prop where
  name : IsSize l.name.length
  type : l.type.IsShort
  lifetime : IsSize l.lifetime.length

@[mk_iff]
structure Bound.IsShort (b : Bound) : Prop where
  name : IsSize b.name.length
  outlives : IsSize b.outlives.length

@[mk_iff]
structure Body.IsShort (b : Body) : Prop where
  name : IsSize b.name.length
  params : b.params.Each Ty.IsShort
  result : b.result.IsShort
  locals : b.locals.Each LocalDecl.IsShort
  blocks : b.blocks.Each Block.IsShort
  lifetimeParams : b.lifetimeParams.Each fun name => IsSize name.length
  lifetimeBounds : b.lifetimeBounds.Each Bound.IsShort

/-- Every text and every list of a module has fewer than 2 ^ 32 members. -/
@[mk_iff]
structure Module.IsShort (m : Module) : Prop where
  name : IsSize m.name.length
  bodies : m.bodies.Each fun b => ∀ body ∈ b, body.IsShort

/-! ### Types -/

namespace Ty

theorem depth_eq (t : Ty) : t.depth = max (depthOfOption t.elem)
    (max (depthOfSlice t.elems) (max (depthOfSlice t.params) (depthOfOption t.result))) + 1 := by
  cases t
  rfl

theorem depth_le_of_option {o : Option Ty} {e : Ty} (member : e ∈ o) :
    e.depth ≤ depthOfOption o := by
  obtain rfl := Option.mem_def.mp member
  exact Nat.le_refl _

theorem depth_le_of_all {l : List Ty} {e : Ty} (member : e ∈ l) : e.depth ≤ depthOfAll l := by
  induction l with
  | nil => simp at member
  | cons first rest ih =>
      rw [depthOfAll]
      rcases List.mem_cons.mp member with rfl | later
      · exact Nat.le_max_left ..
      · exact (ih later).trans (Nat.le_max_right ..)

theorem depth_le_of_slice {s : Option (List Ty)} {l : List Ty} {e : Ty} (there : l ∈ s)
    (member : e ∈ l) : e.depth ≤ depthOfSlice s := by
  obtain rfl := Option.mem_def.mp there
  exact depth_le_of_all member

end Ty

end Handoff

namespace Pack

open Handoff

theorem write_tyOfDepth_eq (fit : Fit) (depth : Nat) (t : Ty) :
    (tyOfDepth fit (depth + 1)).write t = .map [
      (.text "Kind", (Codec.uint8 fit).write t.kind),
      (.text "Name", Codec.text.write t.name),
      (.text "Lifetime", Codec.text.write t.lifetime),
      (.text "Elem", (Codec.option {} (tyOfDepth fit depth)).write t.elem),
      (.text "Elems", (Codec.items {} (tyOfDepth fit depth)).write t.elems),
      (.text "Params", (Codec.items {} (tyOfDepth fit depth)).write t.params),
      (.text "Result", (Codec.option {} (tyOfDepth fit depth)).write t.result)] := rfl

/-- The codec of types up to a depth agrees with that of the next on a type of that depth. -/
theorem write_tyOfDepth_succ (fit : Fit) {depth : Nat} {t : Ty} (within : t.depth ≤ depth) :
    (tyOfDepth fit (depth + 1)).write t = (tyOfDepth fit depth).write t := by
  induction depth generalizing t with
  | zero =>
      rw [Ty.depth_eq] at within
      omega
  | succ depth ih =>
      rw [Ty.depth_eq] at within
      have option : ∀ o : Option Ty, Ty.depthOfOption o ≤ depth →
          (Codec.option {} (tyOfDepth fit (depth + 1))).write o =
            (Codec.option {} (tyOfDepth fit depth)).write o := by
        intro o shallow
        cases o with
        | none => rfl
        | some e => exact ih shallow
      have items : ∀ s : Option (List Ty), Ty.depthOfSlice s ≤ depth →
          (Codec.items {} (tyOfDepth fit (depth + 1))).write s =
            (Codec.items {} (tyOfDepth fit depth)).write s := by
        intro s shallow
        cases s with
        | none => rfl
        | some l =>
            have same : l.map (tyOfDepth fit (depth + 1)).write = l.map (tyOfDepth fit depth).write := by
              refine List.map_congr_left fun e member => ih ?_
              exact (Ty.depth_le_of_all member).trans shallow
            exact congrArg Value.array same
      rw [write_tyOfDepth_eq, write_tyOfDepth_eq, option t.elem (by omega), items t.elems (by omega),
        items t.params (by omega), option t.result (by omega)]

theorem write_tyOfDepth (fit : Fit) {depth : Nat} {t : Ty} (within : t.depth ≤ depth) :
    (tyOfDepth fit depth).write t = (ty fit).write t := by
  induction depth, within using Nat.le_induction with
  | base => rfl
  | succ depth within ih => rw [write_tyOfDepth_succ fit within, ih]

theorem depth_le_of_member (i : Nat) {key v : Value} {members : List (Value × Value)}
    (found : members[i]? = some (key, v)) : v.depth ≤ Value.depthOfMembers members := by
  induction members generalizing i with
  | nil => simp at found
  | cons first rest ih =>
      rw [Value.depthOfMembers]
      cases i with
      | zero =>
          obtain rfl := Option.some.inj found
          exact Nat.le_max_left _ _
      | succ i => exact (ih i found).trans (Nat.le_max_right ..)

/-- A written type is at least as deep as the type. -/
theorem depth_le_write (fit : Fit) {depth : Nat} {t : Ty} (within : t.depth ≤ depth) :
    t.depth ≤ ((tyOfDepth fit depth).write t).depth := by
  induction depth generalizing t with
  | zero =>
      rw [Ty.depth_eq] at within
      omega
  | succ depth ih =>
      rw [Ty.depth_eq] at within
      have option : ∀ o : Option Ty, Ty.depthOfOption o ≤ depth →
          Ty.depthOfOption o ≤ ((Codec.option {} (tyOfDepth fit depth)).write o).depth := by
        intro o shallow
        cases o with
        | none => exact Nat.zero_le _
        | some e => exact ih shallow
      have all : ∀ l : List Ty, Ty.depthOfAll l ≤ depth →
          Ty.depthOfAll l ≤ Value.depthOfAll (l.map (tyOfDepth fit depth).write) := by
        intro l shallow
        induction l with
        | nil => exact Nat.le_refl _
        | cons e rest more =>
            rw [Ty.depthOfAll] at shallow
            have first := ih (t := e) (by omega)
            have others := more (by omega)
            rw [Ty.depthOfAll, List.map_cons, Value.depthOfAll]
            omega
      have items : ∀ s : Option (List Ty), Ty.depthOfSlice s ≤ depth →
          Ty.depthOfSlice s ≤ ((Codec.items {} (tyOfDepth fit depth)).write s).depth := by
        intro s shallow
        cases s with
        | none => exact Nat.zero_le _
        | some l =>
            have inner := all l shallow
            simp only [Ty.depthOfSlice, Codec.items, Value.depth]
            omega
      have elem := option t.elem (by omega)
      have elems := items t.elems (by omega)
      have params := items t.params (by omega)
      have result := option t.result (by omega)
      rw [Ty.depth_eq, write_tyOfDepth_eq, Value.depth, Nat.add_le_add_iff_right]
      -- The four members that hold types stand after the kind, the name and the lifetime.
      simp only [Nat.max_le]
      exact ⟨elem.trans (depth_le_of_member 3 rfl), elems.trans (depth_le_of_member 4 rfl),
        params.trans (depth_le_of_member 5 rfl), result.trans (depth_le_of_member 6 rfl)⟩

theorem faithful_tyOfDepth (fit : Fit) (depth : Nat) :
    (tyOfDepth fit depth).Faithful fun t => t.IsShort ∧ t.depth ≤ depth := by
  induction depth with
  | zero =>
      refine ⟨fun t suits => ?_, fun _ t suits => ?_⟩
      all_goals
        have deep := suits.2
        rw [Ty.depth_eq] at deep
        omega
  | succ depth ih =>
      have present : ∀ t : Ty, t.IsShort ∧ t.depth ≤ depth → (tyOfDepth fit depth).write t ≠ .nil := by
        intro t suits
        cases depth with
        | zero =>
            have deep := suits.2
            rw [Ty.depth_eq] at deep
            omega
        | succ depth => simp [tyOfDepth, Codec.record]
      have inside : ∀ t : Ty, t.IsShort ∧ t.depth ≤ depth + 1 →
          (∀ e ∈ t.elem, e.IsShort ∧ e.depth ≤ depth) ∧
          (∀ l ∈ t.elems, IsSize l.length ∧ ∀ e ∈ l, e.IsShort ∧ e.depth ≤ depth) ∧
          (∀ l ∈ t.params, IsSize l.length ∧ ∀ e ∈ l, e.IsShort ∧ e.depth ≤ depth) ∧
          ∀ e ∈ t.result, e.IsShort ∧ e.depth ≤ depth := by
        rintro t ⟨⟨_, _, elem, elems, eachElem, params, eachParam, result⟩, deep⟩
        rw [Ty.depth_eq] at deep
        refine ⟨?_, ?_, ?_, ?_⟩
        · intro e member
          have := Ty.depth_le_of_option member
          exact ⟨elem e member, by omega⟩
        · intro l there
          refine ⟨elems l there, fun e member => ⟨eachElem l there e member, ?_⟩⟩
          have := Ty.depth_le_of_slice there member
          omega
        · intro l there
          refine ⟨params l there, fun e member => ⟨eachParam l there e member, ?_⟩⟩
          have := Ty.depth_le_of_slice there member
          omega
        · intro e member
          have := Ty.depth_le_of_option member
          exact ⟨result e member, by omega⟩
      rw [tyOfDepth]
      refine .record (.cons (Codec.faithful_uint8 fit) (fun _ _ => trivial) <|
        .cons Codec.faithful_text ?_ <| .cons Codec.faithful_text ?_ <|
        .cons (ih.option {} present) ?_ <| .cons (ih.items {}) ?_ <|
        .cons (ih.items {}) ?_ <| .cons (ih.option {} present) ?_ .nil) ?_ (by decide)
      · rintro t ⟨⟨name⟩, _⟩
        exact name
      · rintro t ⟨⟨_, lifetime⟩, _⟩
        exact lifetime
      · exact fun t suits => (inside t suits).1
      · exact fun t suits => (inside t suits).2.1
      · exact fun t suits => (inside t suits).2.2.1
      · exact fun t suits => (inside t suits).2.2.2
      · intro _ t _
        cases t
        rfl

theorem faithful_ty (fit : Fit) : (ty fit).Faithful Ty.IsShort where
  fits t short := (faithful_tyOfDepth fit t.depth).fits t ⟨short, Nat.le_refl _⟩
  reads old t short := by
    have deep : t.depth ≤ ((ty fit).write t).depth := depth_le_write fit (Nat.le_refl t.depth)
    have read := (faithful_tyOfDepth fit ((ty fit).write t).depth).reads old t ⟨short, deep⟩
    rwa [write_tyOfDepth fit deep] at read

/-! ### Records -/

section Records

variable (fit : Fit)

theorem faithful_place : (place fit).Faithful Always :=
  .record (.cons (Codec.faithful_int32 fit) (fun _ _ => trivial) .nil) (fun _ _ _ => rfl) (by decide)

theorem faithful_const : (const fit).Faithful Const.IsShort :=
  .record (.cons (Codec.faithful_uint8 fit) (fun _ _ => trivial) <|
    .cons (Codec.faithful_int64 fit) (fun _ _ => trivial) <|
    .cons Codec.faithful_double (fun _ _ => trivial) <|
    .cons Codec.faithful_bool (fun _ _ => trivial) <|
    .cons Codec.faithful_text (fun _ short => short) .nil) (fun _ _ _ => rfl) (by decide)

theorem faithful_operand : (operand fit).Faithful Operand.IsShort :=
  .record (.cons (Codec.faithful_uint8 fit) (fun _ _ => trivial) <|
    .cons (faithful_place fit) (fun _ _ => trivial) <|
    .cons (faithful_const fit) (fun _ short => short) .nil) (fun _ _ _ => rfl) (by decide)

theorem faithful_binary : (binary fit).Faithful Binary.IsShort :=
  .record (.cons (Codec.faithful_uint8 fit) (fun _ _ => trivial) <|
    .cons (faithful_operand fit) (fun _ short => short.left) <|
    .cons (faithful_operand fit) (fun _ short => short.right) .nil) (fun _ _ _ => rfl) (by decide)

theorem faithful_unary : (unary fit).Faithful Unary.IsShort :=
  .record (.cons (Codec.faithful_uint8 fit) (fun _ _ => trivial) <|
    .cons (faithful_operand fit) (fun _ short => short) .nil) (fun _ _ _ => rfl) (by decide)

theorem faithful_aggregate : (aggregate fit).Faithful Aggregate.IsShort :=
  .record (.cons (Codec.faithful_uint8 fit) (fun _ _ => trivial) <|
    .cons Codec.faithful_text (fun _ short => short.name) <|
    .cons (Codec.faithful_uint32 fit) (fun _ _ => trivial) <|
    .cons ((faithful_operand fit).items {}) (fun _ short => short.elems) .nil)
    (fun _ _ _ => rfl) (by decide)

theorem faithful_cast : (cast fit).Faithful Cast.IsShort :=
  .record (.cons (faithful_operand fit) (fun _ short => short.value) <|
    .cons (faithful_ty fit) (fun _ short => short.target) .nil) (fun _ _ _ => rfl) (by decide)

theorem faithful_rvalue : (rvalue fit).Faithful RValue.IsShort :=
  .record (.cons (Codec.faithful_uint8 fit) (fun _ _ => trivial) <|
    .cons (faithful_operand fit) (fun _ short => short.use) <|
    .cons (faithful_place fit) (fun _ _ => trivial) <|
    .cons (faithful_binary fit) (fun _ short => short.binary) <|
    .cons (faithful_unary fit) (fun _ short => short.unary) <|
    .cons (faithful_aggregate fit) (fun _ short => short.aggregate) <|
    .cons (faithful_cast fit) (fun _ short => short.cast) <|
    .cons (faithful_place fit) (fun _ _ => trivial) <|
    .cons (faithful_place fit) (fun _ _ => trivial) .nil) (fun _ _ _ => rfl) (by decide)

theorem faithful_assign : (assign fit).Faithful fun a => a.src.IsShort :=
  .record (.cons (faithful_place fit) (fun _ _ => trivial) <|
    .cons (faithful_rvalue fit) (fun _ short => short) .nil) (fun _ _ _ => rfl) (by decide)

theorem faithful_drop : (drop fit).Faithful Always :=
  .record (.cons (faithful_place fit) (fun _ _ => trivial) .nil) (fun _ _ _ => rfl) (by decide)

theorem faithful_statement : (statement fit).Faithful Statement.IsShort :=
  .record (.cons (Codec.faithful_uint8 fit) (fun _ _ => trivial) <|
    .cons (faithful_assign fit) (fun _ short => short) <|
    .cons (faithful_drop fit) (fun _ _ => trivial) .nil) (fun _ _ _ => rfl) (by decide)

theorem faithful_goto : (goto fit).Faithful Always :=
  .record (.cons (Codec.faithful_int32 fit) (fun _ _ => trivial) .nil) (fun _ _ _ => rfl) (by decide)

theorem faithful_switchCase : (switchCase fit).Faithful Always :=
  .record (.cons (Codec.faithful_int64 fit) (fun _ _ => trivial) <|
    .cons (Codec.faithful_int32 fit) (fun _ _ => trivial) .nil) (fun _ _ _ => rfl) (by decide)

theorem faithful_switchInt : (switchInt fit).Faithful SwitchInt.IsShort :=
  .record (.cons (faithful_operand fit) (fun _ short => short.discr) <|
    .cons ((faithful_switchCase fit).items {}) (fun _ short => short.cases) <|
    .cons (Codec.faithful_int32 fit) (fun _ _ => trivial) .nil) (fun _ _ _ => rfl) (by decide)

theorem faithful_call : (call fit).Faithful Call.IsShort :=
  .record (.cons Codec.faithful_text (fun _ short => short.func) <|
    .cons ((faithful_operand fit).items {}) (fun _ short => short.args) <|
    .cons Codec.faithful_bool (fun _ _ => trivial) <|
    .cons (faithful_place fit) (fun _ _ => trivial) <|
    .cons (Codec.faithful_int32 fit) (fun _ _ => trivial) .nil) (fun _ _ _ => rfl) (by decide)

theorem faithful_assert : (assert fit).Faithful Assert.IsShort :=
  .record (.cons (faithful_operand fit) (fun _ short => short.cond) <|
    .cons Codec.faithful_bool (fun _ _ => trivial) <|
    .cons Codec.faithful_text (fun _ short => short.msg) <|
    .cons (Codec.faithful_int32 fit) (fun _ _ => trivial) .nil) (fun _ _ _ => rfl) (by decide)

theorem faithful_terminator : (terminator fit).Faithful Terminator.IsShort :=
  .record (.cons (Codec.faithful_uint8 fit) (fun _ _ => trivial) <|
    .cons (faithful_goto fit) (fun _ _ => trivial) <|
    .cons (faithful_switchInt fit) (fun _ short => short.switchInt) <|
    .cons (faithful_call fit) (fun _ short => short.call) <|
    .cons (faithful_assert fit) (fun _ short => short.assert) .nil) (fun _ _ _ => rfl) (by decide)

theorem faithful_block : (block fit).Faithful Block.IsShort :=
  .record (.cons Codec.faithful_text (fun _ short => short.name) <|
    .cons ((faithful_statement fit).items {}) (fun _ short => short.statements) <|
    .cons (faithful_terminator fit) (fun _ short => short.term) .nil) (fun _ _ _ => rfl) (by decide)

theorem faithful_localDecl : (localDecl fit).Faithful LocalDecl.IsShort :=
  .record (.cons Codec.faithful_text (fun _ short => short.name) <|
    .cons (faithful_ty fit) (fun _ short => short.type) <|
    .cons Codec.faithful_bool (fun _ _ => trivial) <|
    .cons Codec.faithful_text (fun _ short => short.lifetime) .nil) (fun _ _ _ => rfl) (by decide)

theorem faithful_bound : bound.Faithful Bound.IsShort :=
  .record (.cons Codec.faithful_text (fun _ short => short.name) <|
    .cons Codec.faithful_text (fun _ short => short.outlives) .nil) (fun _ _ _ => rfl) (by decide)

theorem faithful_body : (body fit).Faithful Body.IsShort :=
  .record (.cons Codec.faithful_text (fun _ short => short.name) <|
    .cons ((faithful_ty fit).items {}) (fun _ short => short.params) <|
    .cons (faithful_ty fit) (fun _ short => short.result) <|
    .cons ((faithful_localDecl fit).items {}) (fun _ short => short.locals) <|
    .cons ((faithful_block fit).items {}) (fun _ short => short.blocks) <|
    .cons (Codec.faithful_text.items []) (fun _ short => short.lifetimeParams) <|
    .cons (faithful_bound.items {}) (fun _ short => short.lifetimeBounds) .nil)
    (fun _ _ _ => rfl) (by decide)

theorem faithful_module : (module fit).Faithful Module.IsShort :=
  .record (.cons Codec.faithful_text (fun _ short => short.name) <|
    .cons (((faithful_body fit).option {} fun _ _ => by simp [body, Codec.record]).items none)
      (fun _ short => short.bodies) .nil) (fun _ _ _ => rfl) (by decide)

theorem faithful_envelope : (envelope fit).Faithful fun e => ∀ m ∈ e.module, m.IsShort :=
  .record (.cons (Codec.faithful_uint16 fit) (fun _ _ => trivial) <|
    .cons ((faithful_module fit).option {} fun _ _ => by simp [module, Codec.record])
      (fun _ short => short) .nil) (fun _ _ _ => rfl) (by decide)

end Records

theorem decodeModule_encodeModule {m : Module} (short : m.IsShort) (rest : Text) :
    decodeModule (encodeModule m ++ rest) = .ok m := by
  have suits : ∀ other ∈ (Envelope.mk currentLayout (some m)).module, other.IsShort := by
    rintro _ ⟨⟩
    exact short
  have faithful := faithful_envelope .wrap
  rw [decodeModule, encodeModule, Value.take?_encode _ (faithful.fits _ suits)]
  simp only [faithful.reads _ _ suits, if_true]

/-- Packing is lossless: a module is read back from its bytes, whatever follows them, and so what is
read back has its dump, its flaws and the violations of its bodies. -/
theorem packed_read_back (m : Module) (short : m.IsShort) (rest : Text) :
    decodeModule (encodeModule m ++ rest) = .ok m ∧
      ∀ decoded, decodeModule (encodeModule m ++ rest) = .ok decoded →
        decoded.meaning.dump = m.meaning.dump ∧ decoded.meaning.flaws = m.meaning.flaws ∧
          decoded.meaning.bodies.map (Option.map Ownership.check) =
            m.meaning.bodies.map (Option.map Ownership.check) := by
  have same := decodeModule_encodeModule short rest
  refine ⟨same, ?_⟩
  intro decoded found
  obtain rfl := Except.ok.inj (same.symm.trans found)
  exact ⟨rfl, rfl, rfl⟩

/-- A block whose parts have unknown kinds and carry a text that is no UTF-8, the least of the integers
and a float that is no number. -/
def motleyBlock : Block where
  statements := some [{ kind := 9, assign := { src := { kind := 77, use := { const :=
    { int := -9223372036854775808, float := ⟨0x7ff8000000000001⟩, str := [0xc1] } } } } }]
  term := { kind := 255, call := { args := some [{ kind := 3, place := ⟨-7⟩ }] } }

/-- An absent body and one of an unknown type, with a list that is empty, lists that are absent, and
more blocks than two bytes can count. -/
def motley : Module where
  name := List.replicate 300 0xff
  bodies := some [none, some {
    params := some []
    result := { kind := 200, elem := some { name := [0x80], params := some [{}, {}] } }
    blocks := some (List.replicate 70000 motleyBlock) }]

theorem short_motleyBlock : motleyBlock.IsShort := by
  have plain : ({} : Ty).IsShort := by constructor <;> simp [IsSize]
  simp [motleyBlock, Block.isShort_iff, Terminator.isShort_iff, SwitchInt.isShort_iff,
    Call.isShort_iff, Assert.isShort_iff, Statement.IsShort, RValue.isShort_iff, Binary.isShort_iff,
    Unary.IsShort, Aggregate.isShort_iff, Cast.isShort_iff, Operand.IsShort, Const.IsShort, Slice.Each,
    IsSize, Always, plain]

theorem short_motley : motley.IsShort := by
  have plain : ({} : Ty).IsShort := by constructor <;> simp [IsSize]
  have inner : Ty.IsShort { name := [0x80], params := some [{}, {}] } := by
    constructor <;> simp [IsSize, plain]
  have result :
      Ty.IsShort { kind := 200, elem := some { name := [0x80], params := some [{}, {}] } } := by
    constructor <;> simp [IsSize, inner]
  simp [motley, Module.isShort_iff, Body.isShort_iff, Slice.Each, IsSize, result, short_motleyBlock,
    -List.reduceReplicate]

theorem motley_read_back :
    motley.IsShort ∧ decodeModule (encodeModule motley ++ [0xc1, 0]) = .ok motley :=
  ⟨short_motley, (packed_read_back motley short_motley [0xc1, 0]).1⟩

end Pack

end BorrowChecker
