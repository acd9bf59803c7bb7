import BorrowChecker.Diagnostic.Render
import BorrowChecker.Proofs.Account

/-!
Bags lose count of no diagnostic. A run adds diagnostics to bags, reports to them and merges bags
into others, each with a limit of its own. What a bag was offered is told by a journal of the run,
which holds every deed together with the bags as they were then. Main statement: a bag keeps the
first of what it was offered, has counted all of it together with what the merged bags had counted,
and knows whether there was an error among it; and the documents made from it show the first of
this, each with what it says (`run_conserves`).
-/

namespace BorrowChecker

namespace Bag

def keptOf (limit : Int) (offered : List Diagnostic) : List Diagnostic :=
  if 0 < limit then offered.take limit.toNat else offered

/-- A bag agrees with what it was offered, with a number of diagnostics and with whether there were
errors. -/
structure Agrees (b : Bag) (offered : List Diagnostic) (count : Nat) (errors : Prop) : Prop where
  items : b.items = keptOf b.limit offered
  count : b.size + b.dropped = count
  errors : b.hasErrors ↔ errors

theorem agrees_empty (limit : Int) : Agrees { limit } [] 0 False :=
  ⟨by simp [keptOf], rfl, by simp [hasErrors]⟩

variable {b : Bag} {offered : List Diagnostic} {count : Nat} {errors : Prop}

theorem Agrees.of_iff {others : Prop} (agrees : b.Agrees offered count errors)
    (same : errors ↔ others) : b.Agrees offered count others :=
  ⟨agrees.items, agrees.count, agrees.errors.trans same⟩

/-- What a full bag keeps does not change with further offers, and a bag with room keeps all. -/
theorem keptOf_concat (kept : b.items = keptOf b.limit offered) (d : Diagnostic) :
    keptOf b.limit (offered ++ [d]) = if b.isFull then b.items else b.items ++ [d] := by
  unfold keptOf at kept ⊢
  by_cases limited : 0 < b.limit
  · have size := congrArg List.length kept
    simp only [if_pos limited, List.length_take] at kept size ⊢
    simp only [isFull, Bool.and_eq_true, decide_eq_true_eq]
    by_cases full : b.limit ≤ b.items.length
    · rw [if_pos ⟨limited, full⟩, List.take_append_of_le_length (by omega), kept]
    · rw [if_neg fun both => full both.2, List.take_of_length_le (by simp; omega), kept,
        List.take_of_length_le (by omega)]
  · simp only [if_neg limited] at kept ⊢
    simp [isFull, limited, kept]

theorem size_add_dropped (b : Bag) (d : Diagnostic) :
    (b.add d).size + (b.add d).dropped = b.size + b.dropped + 1 := by
  unfold add size
  split
  · exact (Nat.add_assoc ..).symm
  · simp only [List.length_append, List.length_singleton]
    omega

theorem hasErrors_add (b : Bag) (d : Diagnostic) :
    (b.add d).hasErrors = (b.hasErrors || d.isError) := by
  unfold add hasErrors
  split
  · simp [Bool.or_assoc]
  · simp [Bool.or_right_comm]

theorem Agrees.add (agrees : b.Agrees offered count errors) (d : Diagnostic) :
    (b.add d).Agrees (offered ++ [d]) (count + 1) (errors ∨ d.isError) where
  items := by
    rw [limit_add, keptOf_concat agrees.items]
    unfold Bag.add
    split <;> rfl
  count := by rw [size_add_dropped, agrees.count]
  errors := by rw [hasErrors_add, Bool.or_eq_true, agrees.errors]

theorem Agrees.addAll (agrees : b.Agrees offered count errors) (ds : List Diagnostic) :
    (b.addAll ds).Agrees (offered ++ ds) (count + ds.length)
      (errors ∨ ds.any Diagnostic.isError) := by
  induction ds generalizing b offered count errors with
  | nil => simpa [Bag.addAll] using agrees
  | cons d rest ih =>
      have same : (errors ∨ d.isError) ∨ rest.any Diagnostic.isError ↔
          errors ∨ (d :: rest).any Diagnostic.isError := by
        simp [or_assoc]
      have later := (ih (agrees.add d)).of_iff same
      rw [List.append_assoc, Nat.add_assoc, Nat.add_comm 1] at later
      exact later

/-- A merge offers what the other bag holds, and counts and remembers also what it turned away. -/
theorem Agrees.merge (agrees : b.Agrees offered count errors) (other : Bag) :
    (b.merge other).Agrees (offered ++ other.items) (count + (other.size + other.dropped))
      (errors ∨ other.hasErrors) := by
  have merged := agrees.addAll other.items
  refine ⟨merged.items, ?_, ?_⟩
  · have counted := merged.count
    unfold Bag.merge
    simp only [size] at counted ⊢
    omega
  · have flagged := merged.errors
    unfold Bag.merge
    simp only [hasErrors, Bool.or_eq_true] at flagged ⊢
    rw [← or_assoc, flagged, or_assoc]

theorem limit_merge (b other : Bag) : (b.merge other).limit = b.limit := limit_addAll b other.items

end Bag

/-- What can be done to the bags of a run. A report that no bag listens to goes nowhere. -/
inductive Deed (ι : Type) where
  | add (bag : ι) (d : Diagnostic)
  | report (bag : Option ι) (d : Diagnostic)
  | merge (into other : ι) (distinct : into ≠ other)

namespace Deed

variable {ι : Type} [DecidableEq ι]

def apply (bags : ι → Bag) : Deed ι → ι → Bag
  | add bag d => Function.update bags bag ((bags bag).add d)
  | report none _ => bags
  | report (some bag) d => Function.update bags bag ((bags bag).add d)
  | merge into other _ => Function.update bags into ((bags into).merge (bags other))

def run (bags : ι → Bag) (deeds : List (Deed ι)) : ι → Bag := deeds.foldl apply bags

/-- Every deed with the bags as they are when it is done. -/
def journal (bags : ι → Bag) : List (Deed ι) → List ((ι → Bag) × Deed ι)
  | [] => []
  | deed :: rest => (bags, deed) :: journal (deed.apply bags) rest

def offers (bag : ι) : (ι → Bag) × Deed ι → List Diagnostic
  | (_, add target d) => if target = bag then [d] else []
  | (_, report target d) => if target = some bag then [d] else []
  | (bags, merge into other _) => if into = bag then (bags other).items else []

/-- How many diagnostics an entry stands for, those counted that the other bag turned away. -/
def weight (bag : ι) : (ι → Bag) × Deed ι → Nat
  | (_, add target _) => if target = bag then 1 else 0
  | (_, report target _) => if target = some bag then 1 else 0
  | (bags, merge into other _) =>
    if into = bag then (bags other).size + (bags other).dropped else 0

def alarms (bag : ι) : (ι → Bag) × Deed ι → Prop
  | (_, add target d) => target = bag ∧ Severity.error.rank ≤ d.severity.rank
  | (_, report target d) => target = some bag ∧ Severity.error.rank ≤ d.severity.rank
  | (bags, merge into other _) => into = bag ∧ (bags other).hasErrors

variable {bags : ι → Bag} {bag : ι}

theorem isError_iff {d : Diagnostic} : d.isError ↔ Severity.error.rank ≤ d.severity.rank := by
  simp [Diagnostic.isError, Severity.isError]

theorem apply_limit (deed : Deed ι) (bag : ι) : (deed.apply bags bag).limit = (bags bag).limit := by
  cases deed with
  | add target d =>
      by_cases same : target = bag
      · simp [apply, same, Bag.limit_add]
      · simp [apply, Ne.symm same]
  | report target d =>
      cases target with
      | none => rfl
      | some target =>
          by_cases same : target = bag
          · simp [apply, same, Bag.limit_add]
          · simp [apply, Ne.symm same]
  | merge into other distinct =>
      by_cases same : into = bag
      · simp [apply, same, Bag.limit_merge]
      · simp [apply, Ne.symm same]

theorem run_limit (deeds : List (Deed ι)) : (run bags deeds bag).limit = (bags bag).limit := by
  induction deeds generalizing bags with
  | nil => rfl
  | cons deed rest ih => exact ih.trans (apply_limit deed bag)

/-- One deed: a bag goes on to agree with what it was offered, the entry included. -/
theorem apply_agrees {offered : List Diagnostic} {count : Nat} {errors : Prop}
    (agrees : (bags bag).Agrees offered count errors) (deed : Deed ι) :
    (deed.apply bags bag).Agrees (offered ++ offers bag (bags, deed))
      (count + weight bag (bags, deed)) (errors ∨ alarms bag (bags, deed)) := by
  cases deed with
  | add target d =>
      by_cases same : target = bag
      · subst same
        simpa [apply, offers, weight, alarms, isError_iff] using agrees.add d
      · simpa [apply, offers, weight, alarms, same, Ne.symm same] using agrees
  | report target d =>
      cases target with
      | none => simpa [apply, offers, weight, alarms] using agrees
      | some target =>
          by_cases same : target = bag
          · subst same
            simpa [apply, offers, weight, alarms, isError_iff] using agrees.add d
          · simpa [apply, offers, weight, alarms, same, Ne.symm same] using agrees
  | merge into other distinct =>
      by_cases same : into = bag
      · subst same
        simpa [apply, offers, weight, alarms] using agrees.merge (bags other)
      · simpa [apply, offers, weight, alarms, same, Ne.symm same] using agrees

/-- A whole run: a bag agrees with the journal. -/
theorem run_agrees {offered : List Diagnostic} {count : Nat} {errors : Prop}
    (agrees : (bags bag).Agrees offered count errors) (deeds : List (Deed ι)) :
    (run bags deeds bag).Agrees (offered ++ (journal bags deeds).flatMap (offers bag))
      (count + ((journal bags deeds).map (weight bag)).sum)
      (errors ∨ ∃ entry ∈ journal bags deeds, alarms bag entry) := by
  induction deeds generalizing bags offered count errors with
  | nil => simpa [run, journal] using agrees
  | cons deed rest ih =>
      simpa [run, journal, or_assoc, Nat.add_assoc] using ih (apply_agrees agrees deed)

end Deed

namespace Bag

/-- A document names its source if there is one, shows some diagnostics of a bag with what they say,
and tells how many it shows and how many it does not; where it leaves out none, it does not mention
that. -/
structure Shows (o : RenderOptions) (document : Json) (shown : List Diagnostic) (hidden : Nat) :
    Prop where
  source : document.member? "source" = if o.source = [] then none else some (.string o.source)
  items : ∃ objects, document.member? "diagnostics" = some (.array objects) ∧
    List.Forall₂ (Json.Depicts o) shown objects
  count : document.member? "count" = some (.int shown.length)
  dropped : document.member? "dropped" = if hidden = 0 then none else some (.int hidden)

theorem json_shows (b : Bag) (o : RenderOptions) :
    Shows o (b.json o) (b.shownItems o) (b.hiddenCount o) := by
  have named : ∀ name : Text, name ≠ "source" → ∀ rest,
      (Json.textMember "source" o.source ++ rest).lookup name = rest.lookup name := by
    intro name other rest
    have skipped : (name == "source") = false := beq_false_of_ne other
    unfold Json.textMember
    split
    · rfl
    · simp [List.lookup, skipped]
  constructor
  · by_cases unnamed : o.source = []
    · rw [json, Json.member?, Json.textMember, if_pos unnamed, if_pos (by simp [unnamed])]
      split <;> rfl
    · rw [json, Json.member?, Json.textMember, if_neg unnamed, if_neg (by simp [unnamed])]
      rfl
  · refine ⟨(b.shownItems o).map (jsonItem o), ?_, ?_⟩
    · rw [json, Json.member?, List.append_assoc, named _ (by decide)]
      rfl
    · rw [List.forall₂_map_right_iff, List.forall₂_same]
      exact fun d _ => Json.depicts_jsonItem o d
  · rw [json, Json.member?, List.append_assoc, named _ (by decide)]
    rfl
  · rw [json, Json.member?, List.append_assoc, named _ (by decide)]
    split <;> rfl

theorem shownItems_prefix (b : Bag) (o : RenderOptions) : b.shownItems o <+: b.items := by
  unfold shownItems
  split
  · exact List.take_prefix ..
  · exact List.prefix_rfl

theorem shownItems_add_hiddenCount (b : Bag) (o : RenderOptions) :
    (b.shownItems o).length + b.hiddenCount o = b.size + b.dropped := by
  have shorter := (b.shownItems_prefix o).length_le
  unfold hiddenCount size
  omega

end Bag

namespace Deed

variable {ι : Type} [DecidableEq ι]

def fresh (limits : ι → Int) (bag : ι) : Bag := { limit := limits bag }

/-- After every run a bag that was empty at its start holds the first of what it was offered, up to
its limit; its size and what it turned away make up the number of diagnostics added and reported and
of those the merged bags stood for; it has errors exactly if one was added or reported, or a merged
bag had some; and a document shows the first of its items, with what each says, and counts the same
number. -/
theorem run_conserves (limits : ι → Int) (deeds : List (Deed ι)) (bag : ι) :
    (run (fresh limits) deeds bag).items =
      Bag.keptOf (limits bag) ((journal (fresh limits) deeds).flatMap (offers bag)) ∧
    (run (fresh limits) deeds bag).size + (run (fresh limits) deeds bag).dropped =
      ((journal (fresh limits) deeds).map (weight bag)).sum ∧
    ((run (fresh limits) deeds bag).hasErrors ↔
      ∃ entry ∈ journal (fresh limits) deeds, alarms bag entry) ∧
    ∀ o : RenderOptions, ∃ shown hidden,
      Bag.Shows o ((run (fresh limits) deeds bag).json o) shown hidden ∧
      shown = Bag.keptOf o.shown (run (fresh limits) deeds bag).items ∧
      shown <+: (run (fresh limits) deeds bag).items ∧
      shown.length + hidden =
        (run (fresh limits) deeds bag).size + (run (fresh limits) deeds bag).dropped := by
  have empty : (fresh limits bag).Agrees [] 0 False := Bag.agrees_empty (limits bag)
  have agrees := run_agrees empty deeds
  have limit : (run (fresh limits) deeds bag).limit = limits bag := run_limit deeds
  simp only [List.nil_append, Nat.zero_add, false_or] at agrees
  refine ⟨limit ▸ agrees.items, agrees.count, agrees.errors, fun o => ?_⟩
  exact ⟨_, _, Bag.json_shows _ o, rfl, Bag.shownItems_prefix _ o,
    Bag.shownItems_add_hiddenCount _ o⟩

/-- A merge of a bag that has turned an error away. -/
example :
    let noted : Diagnostic := {}
    let failed : Diagnostic := { severity := .error }
    let merged := run (fresh fun bag : Bool => if bag then 1 else 2)
      [.add true noted, .report (some true) failed, .add false noted,
        .merge false true Bool.false_ne_true] false
    merged.items = [noted, noted] ∧ merged.dropped = 1 ∧ merged.hasErrors := by
  decide

end Deed

end BorrowChecker
