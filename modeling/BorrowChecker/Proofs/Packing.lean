import BorrowChecker.Pack.Value
import Mathlib

/-!
Packed values are read back from their bytes, with whatever follows left over. A value has to fit its
form: an integer the range of the form it is written in, and a text, an array or a map a size of at
most four bytes.
-/

namespace BorrowChecker

namespace Pack

/-! ### Digits -/

theorem length_digits (width n : Nat) : (digits width n).length = width := by
  induction width generalizing n with
  | zero => rfl
  | succ width ih => rw [digits, List.length_append, ih, List.length_singleton]

theorem ofDigits_concat (t : Text) (b : UInt8) : ofDigits (t ++ [b]) = ofDigits t * 256 + b.toNat := by
  simp [ofDigits]

theorem ofDigits_digits (width n : Nat) : ofDigits (digits width n) = n % 256 ^ width := by
  induction width generalizing n with
  | zero => simp [digits, ofDigits, Nat.mod_one]
  | succ width ih =>
      have last : n.toUInt8.toNat = n % 256 := by simp
      rw [digits, ofDigits_concat, ih, last, pow_succ, Nat.mul_comm (256 ^ width), Nat.mod_mul]
      omega

theorem ofDigits_digits_of_lt {width n : Nat} (fits : n < 256 ^ width) :
    ofDigits (digits width n) = n := by
  rw [ofDigits_digits, Nat.mod_eq_of_lt fits]

namespace IntForm

def Holds (form : IntForm) (v : Int) : Prop :=
  match form with
  | tiny => -0x20 ≤ v ∧ v < 0x80
  | u8 => 0 ≤ v ∧ v < 0x100
  | u16 => 0 ≤ v ∧ v < 0x10000
  | u32 => 0 ≤ v ∧ v < 0x100000000
  | u64 => 0 ≤ v ∧ v < 0x10000000000000000
  | i8 => -0x80 ≤ v ∧ v < 0x80
  | i16 => -0x8000 ≤ v ∧ v < 0x8000
  | i32 => -0x80000000 ≤ v ∧ v < 0x80000000
  | i64 => -0x8000000000000000 ≤ v ∧ v < 0x8000000000000000

theorem holds_shortest {v : Int} (low : -0x8000000000000000 ≤ v) (high : v < 0x8000000000000000) :
    (shortest v).Holds v := by
  unfold shortest
  split_ifs <;> simp only [Holds] <;> omega

theorem ofDigits_residue (width : Nat) (v : Int) :
    (ofDigits (digits width (v % Nat.pow 256 width).toNat) : Int) = v % Nat.pow 256 width := by
  have positive : (0 : Int) < Nat.pow 256 width := by exact_mod_cast Nat.pow_pos (by decide)
  have low := Int.emod_nonneg v positive.ne'
  have high := Int.emod_lt_of_pos v positive
  rw [ofDigits_digits_of_lt, Int.toNat_of_nonneg low]
  exact (Int.toNat_lt low).mpr high

theorem decode_digits {form : IntForm} {v : Int} (wide : form ≠ tiny) (holds : form.Holds v) :
    form.decode (digits form.width (v % Nat.pow 256 form.width).toNat) = v := by
  unfold decode
  rw [ofDigits_residue]
  cases form with
  | tiny => exact absurd rfl wide
  | u8 | u16 | u32 | u64 => exact Int.emod_eq_of_lt holds.1 holds.2
  | i8 | i16 | i32 | i64 =>
      obtain ⟨low, high⟩ := holds
      simp only [isSigned, if_true, Int.emod_bmod]
      refine Int.bmod_eq_of_le_mul_two ?_ ?_
      · simp only [width, Nat.pow_eq]
        omega
      · simp only [width, Nat.pow_eq]
        omega

theorem ofByte_lead {form : IntForm} (wide : form ≠ tiny) :
    Head.ofByte form.lead = some (.int form) := by
  cases form <;> first | rfl | exact absurd rfl wide

theorem toNat_ofInt (v : Int) : ((UInt8.ofInt v).toNat : Int) = v % 256 := by
  have bounds : 0 ≤ v % 256 ∧ v % 256 < 256 := by omega
  simp only [UInt8.ofInt, UInt8.toNat_ofNat', Nat.reducePow]
  omega

theorem ofByte_tiny {v : Int} (holds : tiny.Holds v) :
    Head.ofByte (UInt8.ofInt v) = some (.done (.int .tiny v)) := by
  obtain ⟨low, high⟩ := holds
  have value := toNat_ofInt v
  simp only [Head.ofByte, UInt8.lt_iff_toNat_lt, UInt8.le_iff_toNat_le, UInt8.reduceToNat]
  rcases lt_or_ge v 0 with negative | positive
  · have same : ((UInt8.ofInt v).toNat : Int) = v + 256 := by omega
    rw [if_neg (by omega), if_neg (by omega), if_neg (by omega), if_neg (by omega),
      if_pos (by omega), same]
    congr 3
    omega
  · have same : ((UInt8.ofInt v).toNat : Int) = v := by omega
    rw [if_pos (by omega), same]

end IntForm

/-! ### Reading without bounds on what is left -/

def rest? (head : Head) (t : Text) : Option (Value × Text) := Option.map Subtype.val (takeRest head t)

def values? (n : Nat) (t : Text) : Option (List Value × Text) :=
  Option.map Subtype.val (takeValues n t)

def members? (n : Nat) (t : Text) : Option (List (Value × Value) × Text) :=
  Option.map Subtype.val (takeMembers n t)

theorem Taken.map_val {α β : Type} {m n : Nat} (le : m ≤ n) (f : α → β) (t : Taken α m) :
    Option.map Subtype.val (Taken.map le f t) =
      (Option.map Subtype.val t).map fun r => (f r.1, r.2) := by
  cases t <;> rfl

theorem takeBytes_append {s : Text} {n : Nat} (length : s.length = n) (t : Text) :
    Option.map Subtype.val (takeBytes n (s ++ t)) = some (s, t) := by
  subst length
  simp [takeBytes]

def Head.IsPlain : Head → Prop
  | sized _ _ => False
  | _ => True

theorem take?_plain {b : UInt8} (head : Head) (plain : head.IsPlain)
    (first : Head.ofByte b = some head) (t : Text) : Value.take? (b :: t) = rest? head t := by
  rw [Value.take?, takeValue, first]
  cases head with
  | sized width head => exact plain.elim
  | _ => rfl

theorem take?_done {b : UInt8} {v : Value} (first : Head.ofByte b = some (.done v)) (t : Text) :
    Value.take? (b :: t) = some (v, t) := by
  rw [take?_plain (.done v) trivial first, rest?, takeRest]
  rfl

theorem take?_sized {lead : UInt8} {width n : Nat} {head : Nat → Head}
    (first : Head.ofByte lead = some (.sized width head)) (fits : n < 256 ^ width) (t : Text) :
    Value.take? (lead :: (digits width n ++ t)) = rest? (head n) t := by
  have size := takeBytes_append (length_digits width n) t
  rw [Value.take?, takeValue, first]
  obtain ⟨⟨⟨s, after⟩, le⟩, taken, same⟩ := Option.map_eq_some_iff.mp size
  obtain ⟨rfl, rfl⟩ := Prod.mk.inj same
  simp only [taken, ofDigits_digits_of_lt fits, rest?, Taken.map_val]
  cases takeRest (head n) after <;> rfl

theorem rest?_bytes {α : Type} {s : Text} {n : Nat} (length : s.length = n) (t : Text) (f : Text → α) :
    Option.map Subtype.val (Taken.map (Nat.le_refl _) f (takeBytes n (s ++ t))) = some (f s, t) := by
  rw [Taken.map_val, takeBytes_append length]
  rfl

theorem values?_zero (t : Text) : values? 0 t = some ([], t) := by
  rw [values?, takeValues]
  rfl

theorem values?_succ {n : Nat} {t after rest : Text} {v : Value} {vs : List Value}
    (first : Value.take? t = some (v, after)) (others : values? n after = some (vs, rest)) :
    values? (n + 1) t = some (v :: vs, rest) := by
  obtain ⟨⟨⟨_, _⟩, le⟩, taken, same⟩ := Option.map_eq_some_iff.mp first
  obtain ⟨rfl, rfl⟩ := Prod.mk.inj same
  have present : t ≠ [] := by
    rintro rfl
    simp [takeValue] at taken
  rw [values?] at others
  rw [values?, takeValues, taken]
  simp only [dif_neg present, Taken.map_val, others]
  rfl

theorem members?_zero (t : Text) : members? 0 t = some ([], t) := by
  rw [members?, takeMembers]
  rfl

theorem members?_succ {n : Nat} {t middle after rest : Text} {k v : Value}
    {members : List (Value × Value)} (key : Value.take? t = some (k, middle))
    (first : Value.take? middle = some (v, after)) (others : members? n after = some (members, rest)) :
    members? (n + 1) t = some ((k, v) :: members, rest) := by
  obtain ⟨⟨⟨_, _⟩, leKey⟩, takenKey, same⟩ := Option.map_eq_some_iff.mp key
  obtain ⟨rfl, rfl⟩ := Prod.mk.inj same
  obtain ⟨⟨⟨_, _⟩, le⟩, taken, same⟩ := Option.map_eq_some_iff.mp first
  obtain ⟨rfl, rfl⟩ := Prod.mk.inj same
  have present : t ≠ [] := by
    rintro rfl
    simp [takeValue] at takenKey
  rw [members?] at others
  rw [members?, takeMembers, takenKey]
  simp only [dif_neg present, taken, Taken.map_val, others]
  rfl

/-! ### Sizes -/

/-- A size is read back: from the first byte if it stands there, else from the bytes after it. -/
theorem take?_sizeHeader (head : Nat → Head) {bound n : Nat} {small : UInt8}
    {wide : List (UInt8 × Nat)} (plain : (head n).IsPlain)
    (short : n < bound → Head.ofByte (small + n.toUInt8) = some (head n))
    (long : ∀ lead width, (lead, width) ∈ wide → Head.ofByte lead = some (.sized width head))
    (offered : ∃ lead width, (lead, width) ∈ wide ∧ n < 256 ^ width) (t : Text) :
    Value.take? (sizeHeader bound small wide n ++ t) = rest? (head n) t := by
  unfold sizeHeader
  split
  · rename_i less
    exact take?_plain (head n) plain (short less) t
  · cases chosen : wide.find? fun x => decide (n < Nat.pow 256 x.2) with
    | none =>
        obtain ⟨lead, width, member, fits⟩ := offered
        have refused := List.find?_eq_none.mp chosen _ member
        exact absurd (decide_eq_true fits) refused
    | some pick =>
        obtain ⟨lead, width⟩ := pick
        have fits : n < 256 ^ width := by simpa using List.find?_some chosen
        exact take?_sized (long lead width (List.mem_of_find?_eq_some chosen)) fits t

def IsSize (n : Nat) : Prop := n < 2 ^ 32

theorem take?_textHeader {n : Nat} (size : IsSize n) (t : Text) :
    Value.take? (textHeader n ++ t) = rest? (.text n) t := by
  refine take?_sizeHeader .text trivial ?_ ?_ ⟨0xdb, 4, by simp, by simpa [IsSize] using size⟩ t
  · intro less
    interval_cases n <;> rfl
  · intro lead width member
    simp only [List.mem_cons, Prod.mk.injEq, List.not_mem_nil, or_false] at member
    rcases member with ⟨rfl, rfl⟩ | ⟨rfl, rfl⟩ | ⟨rfl, rfl⟩ <;> rfl

theorem take?_bytesHeader {n : Nat} (size : IsSize n) (t : Text) :
    Value.take? (bytesHeader n ++ t) = rest? (.bytes n) t := by
  refine take?_sizeHeader .bytes trivial ?_ ?_ ⟨0xc6, 4, by simp, by simpa [IsSize] using size⟩ t
  · intro less
    omega
  · intro lead width member
    simp only [List.mem_cons, Prod.mk.injEq, List.not_mem_nil, or_false] at member
    rcases member with ⟨rfl, rfl⟩ | ⟨rfl, rfl⟩ | ⟨rfl, rfl⟩ <;> rfl

theorem take?_arrayHeader {n : Nat} (size : IsSize n) (t : Text) :
    Value.take? (arrayHeader n ++ t) = rest? (.array n) t := by
  refine take?_sizeHeader .array trivial ?_ ?_ ⟨0xdd, 4, by simp, by simpa [IsSize] using size⟩ t
  · intro less
    interval_cases n <;> rfl
  · intro lead width member
    simp only [List.mem_cons, Prod.mk.injEq, List.not_mem_nil, or_false] at member
    rcases member with ⟨rfl, rfl⟩ | ⟨rfl, rfl⟩ <;> rfl

theorem take?_mapHeader {n : Nat} (size : IsSize n) (t : Text) :
    Value.take? (mapHeader n ++ t) = rest? (.map n) t := by
  refine take?_sizeHeader .map trivial ?_ ?_ ⟨0xdf, 4, by simp, by simpa [IsSize] using size⟩ t
  · intro less
    interval_cases n <;> rfl
  · intro lead width member
    simp only [List.mem_cons, Prod.mk.injEq, List.not_mem_nil, or_false] at member
    rcases member with ⟨rfl, rfl⟩ | ⟨rfl, rfl⟩ <;> rfl

theorem take?_extensionHeader {n : Nat} (size : IsSize n) (t : Text) :
    Value.take? (extensionHeader n ++ t) = rest? (.extension n) t := by
  unfold extensionHeader
  split
  · exact take?_plain (.extension 1) trivial rfl t
  · exact take?_plain (.extension 2) trivial rfl t
  · exact take?_plain (.extension 4) trivial rfl t
  · exact take?_plain (.extension 8) trivial rfl t
  · exact take?_plain (.extension 16) trivial rfl t
  · refine take?_sizeHeader .extension trivial ?_ ?_ ⟨0xc9, 4, by simp, by simpa [IsSize] using size⟩ t
    · intro less
      omega
    · intro lead width member
      simp only [List.mem_cons, Prod.mk.injEq, List.not_mem_nil, or_false] at member
      rcases member with ⟨rfl, rfl⟩ | ⟨rfl, rfl⟩ | ⟨rfl, rfl⟩ <;> rfl

/-! ### Values -/

mutual

def Value.Fits : Value → Prop
  | .int form v => form.Holds v
  | .text t => IsSize t.length
  | .bytes t => IsSize t.length
  | .array items => IsSize items.length ∧ Value.FitsAll items
  | .map members => IsSize members.length ∧ Value.FitsMembers members
  | .extension _ data => IsSize data.length
  | .nil => True
  | .bool _ => True
  | .single _ => True
  | .double _ => True

def Value.FitsAll : List Value → Prop
  | [] => True
  | v :: rest => v.Fits ∧ Value.FitsAll rest

def Value.FitsMembers : List (Value × Value) → Prop
  | [] => True
  | (k, v) :: rest => k.Fits ∧ v.Fits ∧ Value.FitsMembers rest

end

theorem take?_int {form : IntForm} {v : Int} (holds : form.Holds v) (t : Text) :
    Value.take? (form.encode v ++ t) = some (.int form v, t) := by
  unfold IntForm.encode
  split
  · rename_i tiny
    subst tiny
    exact take?_done (IntForm.ofByte_tiny holds) t
  · rename_i wide
    rw [List.cons_append, take?_plain (.int form) trivial (IntForm.ofByte_lead wide), rest?, takeRest,
      rest?_bytes (length_digits ..), IntForm.decode_digits wide holds]

mutual

theorem Value.take?_encode (v : Value) (fits : v.Fits) (t : Text) :
    Value.take? (v.encode ++ t) = some (v, t) :=
  match v with
  | .nil => take?_done rfl t
  | .bool true => take?_done rfl t
  | .bool false => take?_done rfl t
  | .int _ _ => take?_int fits t
  | .single bits => by
      rw [Value.encode, List.cons_append, take?_plain .single trivial rfl, rest?, takeRest,
        rest?_bytes (length_digits ..), ofDigits_digits_of_lt bits.toNat_lt]
      simp
  | .double x => by
      rw [Value.encode, List.cons_append, take?_plain .double trivial rfl, rest?, takeRest,
        rest?_bytes (length_digits ..), ofDigits_digits_of_lt x.bits.toNat_lt]
      simp
  | .text s => by
      rw [Value.encode, List.append_assoc, take?_textHeader fits, rest?, takeRest, rest?_bytes rfl]
  | .bytes s => by
      rw [Value.encode, List.append_assoc, take?_bytesHeader fits, rest?, takeRest, rest?_bytes rfl]
  | .array items => by
      have inner := Value.values?_encodeAll items fits.2 t
      rw [values?] at inner
      rw [Value.encode, List.append_assoc, take?_arrayHeader fits.1, rest?, takeRest, Taken.map_val,
        inner]
      rfl
  | .map members => by
      have inner := Value.members?_encodeMembers members fits.2 t
      rw [members?] at inner
      rw [Value.encode, List.append_assoc, take?_mapHeader fits.1, rest?, takeRest, Taken.map_val,
        inner]
      rfl
  | .extension kind data => by
      rw [Value.encode, List.append_assoc, take?_extensionHeader fits, rest?, List.cons_append, takeRest,
        Taken.map_val, takeBytes_append rfl]
      rfl

theorem Value.values?_encodeAll (items : List Value) (fits : Value.FitsAll items) (t : Text) :
    values? items.length (Value.encodeAll items ++ t) = some (items, t) :=
  match items with
  | [] => values?_zero t
  | v :: rest => by
      rw [Value.encodeAll, List.append_assoc]
      exact values?_succ (v.take?_encode fits.1 _) (Value.values?_encodeAll rest fits.2 t)

theorem Value.members?_encodeMembers (members : List (Value × Value))
    (fits : Value.FitsMembers members) (t : Text) :
    members? members.length (Value.encodeMembers members ++ t) = some (members, t) :=
  match members with
  | [] => members?_zero t
  | (k, v) :: rest => by
      rw [Value.encodeMembers, List.append_assoc, List.append_assoc]
      exact members?_succ (k.take?_encode fits.1 _) (v.take?_encode fits.2.1 _)
        (Value.members?_encodeMembers rest fits.2.2 t)

end

end Pack

end BorrowChecker
