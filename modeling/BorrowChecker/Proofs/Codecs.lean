import BorrowChecker.Pack.Codec
import BorrowChecker.Proofs.Packing
import Mathlib

/-!
Typed data is read back from the packed value that it is written as, whatever is read over. Codecs are
put together from smaller ones, and being faithful is put together with them: for a record it is enough
that every field is faithful, that the names of the fields differ, and that to set all fields is to
replace the record.
-/

namespace BorrowChecker

namespace Pack

/-- What is written fits, and is read back over any old value. -/
structure Codec.Faithful {α : Type} (c : Codec α) (Suits : α → Prop) : Prop where
  fits : ∀ a, Suits a → (c.write a).Fits
  reads : ∀ old a, Suits a → c.read old (c.write a) = some a

def Always {α : Type} (_ : α) : Prop := True

theorem intWithin?_int {fit : Fit} {low high v : Int} (form : IntForm) (above : low ≤ v)
    (below : v ≤ high) : (Value.int form v).intWithin? fit low high = some v := by
  have admits : fit.admits low high v = true := by
    cases fit <;> simp [Fit.admits, above, below]
  simp [Value.intWithin?, Value.int?, Option.filter, admits]

namespace Codec

variable {α : Type} {c : Codec α} {Suits : α → Prop}

/-- Data that is written as integers is read back, if all that is suitable lies within the bounds of
reading, and forms are chosen that hold what lies there. -/
theorem Faithful.ofInt {fit : Fit} {low high : Int} {form : α → IntForm} {number : α → Int}
    {restore : Int → α} (writes : ∀ a, c.write a = .int (form a) (number a))
    (reads : ∀ old v, c.read old v = (v.intWithin? fit low high).map restore)
    (holds : ∀ a, low ≤ number a → number a ≤ high → (form a).Holds (number a))
    (within : ∀ a, Suits a → low ≤ number a ∧ number a ≤ high)
    (restored : ∀ a, Suits a → restore (number a) = a) : c.Faithful Suits where
  fits a suits := by
    obtain ⟨above, below⟩ := within a suits
    rw [writes]
    exact holds a above below
  reads old a suits := by
    obtain ⟨above, below⟩ := within a suits
    rw [writes, reads, intWithin?_int _ above below, Option.map_some, restored a suits]

theorem faithful_uint8 (fit : Fit) : (uint8 fit).Faithful Always := by
  refine .ofInt (fun _ => rfl) (fun _ _ => rfl) (fun _ above below => ⟨above, by omega⟩) ?_ ?_
  · intro n _
    have bound := n.toNat_lt
    omega
  · intro n _
    have bound := n.toNat_lt
    rw [UInt8.ofInt, Int.emod_eq_of_lt (by omega) (by omega), Int.toNat_natCast, UInt8.ofNat_toNat]

theorem faithful_uint16 (fit : Fit) : (uint16 fit).Faithful Always := by
  refine .ofInt (fun _ => rfl) (fun _ _ => rfl) (fun _ above below => ⟨above, by omega⟩) ?_ ?_
  · intro n _
    have bound := n.toNat_lt
    omega
  · intro n _
    have bound := n.toNat_lt
    rw [UInt16.ofInt, Int.emod_eq_of_lt (by omega) (by omega), Int.toNat_natCast, UInt16.ofNat_toNat]

theorem faithful_uint32 (fit : Fit) : (uint32 fit).Faithful Always := by
  refine .ofInt (fun _ => rfl) (fun _ _ => rfl) (fun _ above below => ⟨above, by omega⟩) ?_ ?_
  · intro n _
    have bound := n.toNat_lt
    omega
  · intro n _
    have bound := n.toNat_lt
    rw [UInt32.ofInt, Int.emod_eq_of_lt (by omega) (by omega), Int.toNat_natCast, UInt32.ofNat_toNat]

theorem faithful_int32 (fit : Fit) : (int32 fit).Faithful Always := by
  refine .ofInt (fun _ => rfl) (fun _ _ => rfl) (fun _ above below => ⟨above, by omega⟩) ?_ ?_
  · intro n _
    exact ⟨n.le_toInt, Int.le_of_lt_add_one n.toInt_lt⟩
  · intro n _
    exact Int32.ofInt_toInt n

theorem faithful_int64 (fit : Fit) : (int64 fit).Faithful Always := by
  refine .ofInt (fun _ => rfl) (fun _ _ => rfl) (fun _ above below => ⟨above, by omega⟩) ?_ ?_
  · intro n _
    exact ⟨n.le_toInt, Int.le_of_lt_add_one n.toInt_lt⟩
  · intro n _
    exact Int64.ofInt_toInt n

theorem faithful_id32 (fit : Fit) :
    (id32 fit).Faithful fun n => -0x80000000 ≤ n ∧ n < 0x80000000 := by
  refine .ofInt (fun _ => rfl) (fun _ _ => rfl) (fun _ above below => ⟨above, by omega⟩) ?_ ?_
  · intro n within
    exact ⟨within.1, Int.le_of_lt_add_one within.2⟩
  · rintro n ⟨low, high⟩
    rw [Int.bmod_eq_of_le_mul_two] <;> omega

theorem faithful_count (fit : Fit) :
    (count fit).Faithful fun n => -0x8000000000000000 ≤ n ∧ n < 0x8000000000000000 := by
  refine .ofInt (fun _ => rfl) (fun _ _ => rfl)
    (fun _ above below => IntForm.holds_shortest above (by omega)) ?_ ?_
  · intro n within
    exact ⟨within.1, Int.le_of_lt_add_one within.2⟩
  · rintro n ⟨low, high⟩
    rw [Int.bmod_eq_of_le_mul_two] <;> omega

theorem faithful_bool : bool.Faithful Always where
  fits _ _ := trivial
  reads _ _ _ := rfl

theorem faithful_double : double.Faithful Always where
  fits _ _ := trivial
  reads _ _ _ := rfl

theorem faithful_text : text.Faithful fun t => IsSize t.length where
  fits _ size := size
  reads _ _ _ := rfl

/-- Something that is there must not be written as nothing. -/
theorem Faithful.option (faithful : c.Faithful Suits) (blank : α)
    (present : ∀ a, Suits a → c.write a ≠ .nil) :
    (option blank c).Faithful fun o => ∀ a ∈ o, Suits a where
  fits o suits := by
    cases o with
    | none => trivial
    | some a => exact faithful.fits a (suits a rfl)
  reads old o suits := by
    cases o with
    | none => rfl
    | some a =>
        have something := present a (suits a rfl)
        simp only [Codec.option]
        rw [faithful.reads _ a (suits a rfl), Option.map_some]

theorem Faithful.fitsAll (faithful : c.Faithful Suits) {l : List α} (suits : ∀ a ∈ l, Suits a) :
    Value.FitsAll (l.map c.write) := by
  induction l with
  | nil => trivial
  | cons a rest ih =>
      rw [List.forall_mem_cons] at suits
      exact ⟨faithful.fits a suits.1, ih suits.2⟩

theorem Faithful.readsAll (faithful : c.Faithful Suits) (blank : α) {l : List α}
    (suits : ∀ a ∈ l, Suits a) : (l.map c.write).mapM (c.read blank) = some l := by
  induction l with
  | nil => rfl
  | cons a rest ih =>
      rw [List.forall_mem_cons] at suits
      rw [List.map_cons, List.mapM_cons, faithful.reads blank a suits.1, ih suits.2]
      rfl

theorem Faithful.items (faithful : c.Faithful Suits) (blank : α) :
    (items blank c).Faithful fun s => ∀ l ∈ s, IsSize l.length ∧ ∀ a ∈ l, Suits a where
  fits s suits := by
    cases s with
    | none => trivial
    | some l =>
        obtain ⟨size, each⟩ := suits l rfl
        refine ⟨?_, faithful.fitsAll each⟩
        rwa [List.length_map]
  reads _ s suits := by
    cases s with
    | none => rfl
    | some l =>
        obtain ⟨_, each⟩ := suits l rfl
        simp only [Codec.items, faithful.readsAll blank each, Option.map_some]

end Codec

/-! ### Records -/

structure Copies {α : Type} (fields : List (Field α)) (names : List Text) (Suits : α → Prop)
    (copy : α → α → α) : Prop where
  named : fields.map Field.name = names
  fits : ∀ a, Suits a → ∀ f ∈ fields, (f.write a).Fits
  sets : ∀ old a, Suits a → fields.foldlM (fun acc f => f.set acc (f.write a)) old = some (copy old a)

theorem Copies.nil {α : Type} {Suits : α → Prop} : Copies [] [] Suits fun old _ => old where
  named := rfl
  fits _ _ := by simp
  sets _ _ _ := rfl

theorem Copies.cons {α β : Type} {c : Codec β} {Suits : α → Prop} {Part : β → Prop} {name : String}
    {get : α → β} {put : α → β → α} {fields : List (Field α)} {names : List Text}
    {copy : α → α → α} (faithful : c.Faithful Part) (part : ∀ a, Suits a → Part (get a))
    (rest : Copies fields names Suits copy) :
    Copies (field name c get put :: fields) (Text.ofString name :: names) Suits
      fun old a => copy (put old (get a)) a where
  named := by rw [List.map_cons, rest.named]; rfl
  fits a suits := by
    rw [List.forall_mem_cons]
    exact ⟨faithful.fits _ (part a suits), rest.fits a suits⟩
  sets old a suits := by
    rw [List.foldlM_cons]
    simp only [field, faithful.reads _ _ (part a suits), Option.map_some]
    exact rest.sets _ a suits

theorem find?_of_named {α : Type} {fields : List (Field α)} (distinct : (fields.map Field.name).Nodup)
    {f : Field α} (member : f ∈ fields) : (fields.find? fun g => g.name == f.name) = some f := by
  induction fields with
  | nil => simp at member
  | cons first rest ih =>
      rw [List.map_cons, List.nodup_cons] at distinct
      rcases List.mem_cons.mp member with rfl | later
      · simp
      · have other : first.name ≠ f.name := by
          intro same
          exact distinct.1 (same ▸ List.mem_map_of_mem later)
        rw [List.find?_cons_of_neg (by simpa using other)]
        exact ih distinct.2 later

theorem foldlM_setMember {α : Type} {fields : List (Field α)} (distinct : (fields.map Field.name).Nodup)
    (a : α) {part : List (Field α)} (sub : part ⊆ fields) (old : α) :
    (part.map fun f => (Value.text f.name, f.write a)).foldlM (setMember fields) old =
      part.foldlM (fun acc f => f.set acc (f.write a)) old := by
  induction part generalizing old with
  | nil => rfl
  | cons f rest ih =>
      rw [List.cons_subset] at sub
      have first : setMember fields old (Value.text f.name, f.write a) = f.set old (f.write a) := by
        simp only [setMember, Value.text?, find?_of_named distinct sub.1]
      rw [List.map_cons, List.foldlM_cons, List.foldlM_cons, first]
      exact congrArg _ (funext (ih sub.2))

def NamesFit (names : List Text) : Prop :=
  names.Nodup ∧ names.length < 16 ∧ ∀ name ∈ names, name.length < 32

instance (names : List Text) : Decidable (NamesFit names) := inferInstanceAs (Decidable (_ ∧ _))

theorem Codec.Faithful.record {α : Type} {fields : List (Field α)} {names : List Text}
    {Suits : α → Prop} {copy : α → α → α} {blank : α} (copies : Copies fields names Suits copy)
    (whole : ∀ old a, Suits a → copy old a = a) (fine : NamesFit names) :
    (Codec.record blank fields).Faithful Suits where
  fits a suits := by
    obtain ⟨_, few, short⟩ := fine
    have count : fields.length = names.length := by rw [← copies.named, List.length_map]
    refine ⟨?_, ?_⟩
    · rw [List.length_map, count]
      exact few.trans (by decide)
    · suffices part : ∀ part ⊆ fields,
          Value.FitsMembers (part.map fun f => (Value.text f.name, f.write a)) from
        part fields (List.Subset.refl _)
      intro part sub
      induction part with
      | nil => trivial
      | cons f rest ih =>
          rw [List.cons_subset] at sub
          have name := short f.name (copies.named ▸ List.mem_map_of_mem sub.1)
          exact ⟨name.trans (by decide), copies.fits a suits f sub.1, ih sub.2⟩
  reads old a suits := by
    have distinct : (fields.map Field.name).Nodup := copies.named ▸ fine.1
    simp only [Codec.record]
    rw [foldlM_setMember distinct a (List.Subset.refl _), copies.sets old a suits, whole old a suits]

end Pack

end BorrowChecker
