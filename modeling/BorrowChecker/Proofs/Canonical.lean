import Mathlib.Data.List.TakeWhile
import BorrowChecker.Proofs.Decomposition
import BorrowChecker.Proofs.Strays

/-!
The composed form of a text is composed already. Breaking up runs of marks, decomposing, ordering
the marks and composing are each followed through the composed form: its runs are short enough,
decomposing it gives the ordered code points it was composed from, up to the order of neighbouring
marks of different classes, and so it is composed to itself.
-/

namespace BorrowChecker

namespace Normal

open CodePoint

def runAfter (count v : Nat) : Nat :=
  if leadingMarks v = 0 then trailingMarks v else count + leadingMarks v

/-- No run of marks is too long, the first one counted from some marks before it. -/
def RunsFit (count : Nat) : List Nat → Prop
  | [] => True
  | v :: rest => count + leadingMarks v ≤ maxMarks ∧ RunsFit (runAfter count v) rest

theorem runsFit_append {count : Nat} {values more : List Nat} :
    RunsFit count (values ++ more) ↔
      RunsFit count values ∧ RunsFit (values.foldl runAfter count) more := by
  induction values generalizing count with
  | nil => simp [RunsFit]
  | cons v rest ih => simp only [List.cons_append, RunsFit, ih, List.foldl_cons, and_assoc]

theorem breakRuns_of_runsFit {count : Nat} {points : List CodePoint}
    (fit : RunsFit count (points.map value)) : breakRuns count points = points := by
  induction points generalizing count with
  | nil => rfl
  | cons c rest ih =>
      obtain ⟨first, later⟩ := fit
      rw [breakRuns, if_neg (by omega)]
      rw [runAfter] at later
      split_ifs at later ⊢
      · rw [ih later]
      · rw [ih later]

theorem runsFit_breakRuns {count : Nat} (small : count ≤ maxMarks) (points : List CodePoint) :
    RunsFit count ((breakRuns count points).map value) := by
  induction points generalizing count with
  | nil => exact trivial
  | cons c rest ih =>
      have joins : IsBare joiner.value := isBare_of_mem (by decide)
      have lead := leadingMarks_le c.value
      have trail := trailingMarks_le c.value
      rw [maxMarks] at small
      rw [breakRuns]
      split_ifs with long starts
      · rw [maxMarks] at long
        have mark : leadingMarks c.value ≠ 0 := by omega
        have next : runAfter 0 c.value = leadingMarks c.value := by simp [runAfter, mark]
        refine ⟨?_, ?_⟩
        · rw [joins.leadingMarks, maxMarks]
          omega
        · rw [runAfter, if_pos joins.leadingMarks, joins.trailingMarks]
          refine ⟨?_, ?_⟩
          · rw [maxMarks]
            omega
          · rw [next]
            exact ih (by rw [maxMarks]; omega)
      · refine ⟨by omega, ?_⟩
        rw [runAfter, if_pos starts]
        exact ih (by rw [maxMarks]; omega)
      · refine ⟨by omega, ?_⟩
        rw [runAfter, if_neg starts]
        exact ih (by omega)

/-- Marks make the run before them longer. -/
theorem run_of_attached {rest : List Nat} (settled : ∀ p ∈ rest, decomposition p = [])
    (narrow : ∀ p ∈ rest, within wideLeads p = false) (attached : ∀ p ∈ rest, attaches p)
    (count : Nat) : rest.foldl runAfter count = count + rest.length ∧
      (count ≤ maxMarks → (RunsFit count rest ↔ count + rest.length ≤ maxMarks)) := by
  induction rest generalizing count with
  | nil => simp [RunsFit]
  | cons p more ih =>
      simp only [List.forall_mem_cons] at settled narrow attached
      have one := leadingMarks_of_attaches settled.1 narrow.1 attached.1
      have next : runAfter count p = count + 1 := by simp [runAfter, one]
      obtain ⟨total, fits⟩ := ih settled.2 narrow.2 attached.2 (count + 1)
      rw [List.foldl_cons, next, total, RunsFit, one, next, List.length_cons]
      refine ⟨by omega, fun small => ?_⟩
      by_cases full : count + 1 ≤ maxMarks
      · rw [fits full]
        omega
      · omega

/-- Stacked letters end the run before them. -/
theorem run_of_bare {front : List Nat} (bare : ∀ p ∈ front, IsBare p) {count : Nat}
    (small : count ≤ maxMarks) : RunsFit count front ∧ front.foldl runAfter count ≤ maxMarks := by
  induction front generalizing count with
  | nil => exact ⟨trivial, small⟩
  | cons p more ih =>
      simp only [List.forall_mem_cons] at bare
      have next : runAfter count p = 0 := by
        rw [runAfter, if_pos bare.1.leadingMarks, bare.1.trailingMarks]
      obtain ⟨fits, bound⟩ := ih bare.2 (Nat.zero_le maxMarks)
      rw [RunsFit, List.foldl_cons, next, bare.1.leadingMarks]
      exact ⟨⟨small, fits⟩, bound⟩

theorem RunsFit.count_le {count v : Nat} {rest : List Nat} (fits : RunsFit count (v :: rest)) :
    count ≤ maxMarks :=
  (Nat.le_add_right ..).trans fits.1

/-- A code point whose pieces are a mark with further marks is as many marks. -/
theorem run_marks {v q count : Nat} {rest : List Nat} (narrow : within wideLeads v = false)
    (shape : pieces v = q :: rest) (mark : attaches q) (attached : ∀ p ∈ rest, attaches p)
    (parts : ∀ p ∈ q :: rest, decomposition p = [] ∧ within wideLeads p = false) :
    (q :: rest).foldl runAfter count = runAfter count v ∧
      (RunsFit count (q :: rest) ↔ count + leadingMarks v ≤ maxMarks) := by
  have all : ∀ p ∈ q :: rest, attaches p := List.forall_mem_cons.mpr ⟨mark, attached⟩
  have lead : leadingMarks v = (q :: rest).length := by
    rw [leadingMarks_of_narrow narrow, shape, List.takeWhile_eq_self_iff.mpr all]
  obtain ⟨total, fits⟩ := run_of_attached (fun p member => (parts p member).1)
    (fun p member => (parts p member).2) all count
  refine ⟨?_, ?_⟩
  · rw [total, runAfter, if_neg (by simp [lead]), lead]
  · rw [lead]
    by_cases small : count ≤ maxMarks
    · exact fits small
    · exact ⟨fun fit => absurd fit.count_le small, fun bound => by omega⟩

/-- A code point whose pieces are letters, the last with marks, starts a run of those marks. -/
theorem run_letters {v q count : Nat} {front rest : List Nat} (narrow : within wideLeads v = false)
    (shape : pieces v = front ++ q :: rest) (bare : ∀ p ∈ front, IsBare p)
    (apart : attaches q = false) (attached : ∀ p ∈ rest, attaches p)
    (trail : wideTrail v = if wideTrail q = 0 then 0 else wideTrail q + rest.length)
    (parts : ∀ p ∈ q :: rest, decomposition p = [] ∧ within wideLeads p = false) :
    (front ++ q :: rest).foldl runAfter count = runAfter count v ∧
      (RunsFit count (front ++ q :: rest) ↔ count + leadingMarks v ≤ maxMarks) := by
  obtain ⟨⟨settled, flat⟩, marks⟩ := List.forall_mem_cons.mp parts
  have noLead : leadingMarks q = 0 := leadingMarks_of_apart settled flat apart
  have ends : trailingMarks q = wideTrail q := by
    rw [trailingMarks_eq, pieces_of_settled settled]
    split_ifs with none_
    · simp [apart, none_]
    · rfl
  have lead : leadingMarks v = 0 := by
    rw [leadingMarks_of_narrow narrow, shape]
    cases front with
    | nil => simp [apart]
    | cons p more => simp [(bare p (List.mem_cons_self ..)).apart]
  have last : trailingMarks v = wideTrail q + rest.length := by
    have reversed : ∀ p ∈ rest.reverse, attaches p := fun p member =>
      attached p (List.mem_reverse.mp member)
    have tail : ((pieces v).reverse.takeWhile attaches).length = rest.length := by
      rw [shape, List.reverse_append, List.reverse_cons, List.append_assoc,
        List.takeWhile_append_of_pos reversed]
      simp [apart]
    rw [trailingMarks_eq, tail, trail]
    split_ifs <;> omega
  obtain ⟨total, fits⟩ := run_of_attached (fun p member => (marks p member).1)
    (fun p member => (marks p member).2) attached (wideTrail q)
  have few := length_pieces_le v
  rw [shape, List.length_append, List.length_cons] at few
  have wide := wideTrail_le q
  have room : RunsFit (wideTrail q) rest :=
    (fits (by rw [maxMarks]; omega)).mpr (by rw [maxMarks]; omega)
  have next : ∀ n, runAfter n q = wideTrail q := fun n => by rw [runAfter, if_pos noLead, ends]
  refine ⟨?_, ?_⟩
  · rw [List.foldl_append, List.foldl_cons, next, total, runAfter, if_pos lead, last]
  · rw [lead]
    refine ⟨fun fit => ?_, fun small => ?_⟩
    · cases front with
      | nil => exact fit.count_le
      | cons p more => exact fit.count_le
    · obtain ⟨before, bound⟩ := run_of_bare bare small
      exact runsFit_append.mpr ⟨before, by rwa [noLead], by rwa [next]⟩

/-- A code point and its pieces count for the same marks. -/
theorem run_pieces (v count : Nat) : (pieces v).foldl runAfter count = runAfter count v ∧
    (RunsFit count (pieces v) ↔ count + leadingMarks v ≤ maxMarks) := by
  cases split : decomposition v with
  | nil => simp [pieces_of_settled split, RunsFit]
  | cons a others =>
      have narrow := (splits_of_decomposition split).narrow v (List.mem_cons_self ..)
      obtain ⟨front, q, rest, shape, bare, apart, attached, trail⟩ := pieces_shape v
      have parts : ∀ p ∈ q :: rest, decomposition p = [] ∧ within wideLeads p = false := by
        intro p member
        have piece : p ∈ pieces v := shape ▸ List.mem_append_right front member
        exact ⟨settled_of_mem_pieces piece, narrow_of_mem_pieces (by simp [split]) piece⟩
      cases mark : attaches q with
      | true =>
          have alone : front = [] := by
            by_contra stacked
            simp [apart stacked] at mark
          subst alone
          rw [shape]
          exact run_marks narrow shape mark attached parts
      | false =>
          rw [shape]
          exact run_letters narrow shape bare mark attached trail parts

theorem runsFit_pieces {count : Nat} (values : List Nat) :
    RunsFit count (values.flatMap pieces) ↔ RunsFit count values := by
  induction values generalizing count with
  | nil => exact Iff.rfl
  | cons v rest ih =>
      obtain ⟨total, fits⟩ := run_pieces v count
      rw [List.flatMap_cons, runsFit_append, total, fits, ih, RunsFit]

theorem value_decomposeAll (points : List CodePoint) :
    (decomposeAll points).map value = (points.map value).flatMap pieces := by
  induction points with
  | nil => rfl
  | cons c rest ih =>
      have single : (decomposeAll [c]).map value = pieces c.value := by
        by_cases settled : decomposition c.value = []
        · simp [decomposeAll, settled, pieces_of_settled settled]
        · simp [decomposeAll, settled, pieces, Function.comp_def, ofValue]
      rw [decomposeAll_cons, List.map_append, single, ih, List.map_cons, List.flatMap_cons]

theorem runsFit_decomposeAll {count : Nat} {points : List CodePoint} :
    RunsFit count ((decomposeAll points).map value) ↔ RunsFit count (points.map value) := by
  rw [value_decomposeAll, runsFit_pieces]

/-- The same code points, with neighbouring marks of different classes exchanged. -/
inductive Shuffled : List CodePoint → List CodePoint → Prop
  | nil : Shuffled [] []
  | cons (c : CodePoint) {points others : List CodePoint} (rest : Shuffled points others) :
      Shuffled (c :: points) (c :: others)
  | swap {c d : CodePoint} (first : combiningClass c.value ≠ 0)
      (second : combiningClass d.value ≠ 0)
      (differ : combiningClass c.value ≠ combiningClass d.value) (points : List CodePoint) :
      Shuffled (c :: d :: points) (d :: c :: points)
  | trans {points others last : List CodePoint} (first : Shuffled points others)
      (second : Shuffled others last) : Shuffled points last

namespace Shuffled

theorem refl (points : List CodePoint) : Shuffled points points := by
  induction points with
  | nil => exact .nil
  | cons c rest ih => exact .cons c ih

variable {points others : List CodePoint}

theorem perm (same : Shuffled points others) : points.Perm others := by
  induction same with
  | nil => exact .nil
  | cons c _ ih => exact ih.cons c
  | swap => exact .swap ..
  | trans _ _ first second => exact first.trans second

theorem append_left (front : List CodePoint) (same : Shuffled points others) :
    Shuffled (front ++ points) (front ++ others) := by
  induction front with
  | nil => exact same
  | cons c rest ih => exact .cons c ih

/-- A mark may be moved over marks of other classes. -/
theorem move {c : CodePoint} {marks : List CodePoint} (mark : marks ≠ [] → combiningClass c.value ≠ 0)
    (others : ∀ m ∈ marks, combiningClass m.value ≠ 0 ∧
      combiningClass c.value ≠ combiningClass m.value) (rest : List CodePoint) :
    Shuffled (c :: (marks ++ rest)) (marks ++ c :: rest) := by
  induction marks with
  | nil => exact .refl _
  | cons m more ih =>
      obtain ⟨first, later⟩ := List.forall_mem_cons.mp others
      have here := mark (by simp)
      exact .trans (.swap here first.1 first.2 _) (.cons m (ih (fun _ => here) later))

end Shuffled

def InOrder (c d : CodePoint) : Prop :=
  combiningClass d.value ≠ 0 → combiningClass c.value ≤ combiningClass d.value

theorem place_of_inOrder {c d : CodePoint} (ordered : InOrder c d) (rest : List CodePoint) :
    place c (d :: rest) = c :: d :: rest := by
  rw [place, if_neg]
  rintro ⟨mark, lower⟩
  exact absurd (ordered mark) (by omega)

theorem place_of_lower {c d : CodePoint} (mark : combiningClass d.value ≠ 0)
    (lower : combiningClass d.value < combiningClass c.value) (rest : List CodePoint) :
    place c (d :: rest) = d :: place c rest := by
  rw [place, if_pos ⟨mark, lower⟩]

/-- Marks of different classes may be placed in either order. -/
theorem place_comm {c d : CodePoint} (first : combiningClass c.value ≠ 0)
    (lower : combiningClass c.value < combiningClass d.value) (points : List CodePoint) :
    place c (place d points) = place d (place c points) := by
  induction points with
  | nil =>
      rw [place, place, place_of_inOrder fun _ => lower.le, place_of_lower first lower]
      rfl
  | cons e rest ih =>
      by_cases mark : combiningClass e.value = 0
      · -- both stop before a starter
        have stops : ∀ b, place b (e :: rest) = b :: e :: rest := fun b =>
          place_of_inOrder (fun other => absurd mark other) rest
        rw [stops, stops, place_of_inOrder fun _ => lower.le, place_of_lower first lower, stops]
      · rcases lt_or_ge (combiningClass e.value) (combiningClass c.value) with below | above
        · rw [place_of_lower mark (below.trans lower), place_of_lower mark below,
            place_of_lower mark below, place_of_lower mark (below.trans lower), ih]
        · rw [place_of_inOrder (c := c) fun _ => above, place_of_lower first lower]
          rcases lt_or_ge (combiningClass e.value) (combiningClass d.value) with under | beyond
          · rw [place_of_lower mark under, place_of_inOrder fun _ => above]
          · rw [place_of_inOrder fun _ => beyond, place_of_inOrder fun _ => lower.le]

theorem Shuffled.reorder_eq {points others : List CodePoint} (same : Shuffled points others) :
    reorder points = reorder others := by
  induction same with
  | nil => rfl
  | cons c _ ih => rw [reorder, reorder, ih]
  | swap first second differ rest =>
      rcases lt_or_gt_of_ne differ with lower | higher
      · exact place_comm first lower _
      · exact (place_comm second higher _).symm
  | trans _ _ first second => exact first.trans second

theorem shuffled_place (c : CodePoint) (points : List CodePoint) :
    Shuffled (c :: points) (place c points) := by
  induction points with
  | nil => exact .refl _
  | cons d rest ih =>
      rw [place]
      split_ifs with lower
      · exact .trans (.swap (by omega) lower.1 (by omega) rest) (.cons d ih)
      · exact .refl _

theorem shuffled_reorder (points : List CodePoint) : Shuffled points (reorder points) := by
  induction points with
  | nil => exact .nil
  | cons c rest ih => exact .trans (.cons c ih) (shuffled_place c _)

theorem reorder_of_inOrder {points : List CodePoint} (ordered : points.IsChain InOrder) :
    reorder points = points := by
  induction points with
  | nil => rfl
  | cons c rest ih =>
      rw [reorder, ih ordered.of_cons]
      cases rest with
      | nil => rfl
      | cons d more => exact place_of_inOrder (List.isChain_cons_cons.mp ordered).1 more

theorem inOrder_place (c : CodePoint) {points : List CodePoint} (ordered : points.IsChain InOrder) :
    (place c points).IsChain InOrder := by
  induction points with
  | nil => exact .singleton c
  | cons d rest ih =>
      rw [place]
      split_ifs with lower
      · refine List.isChain_cons.mpr ⟨fun e first => ?_, ih ordered.of_cons⟩
        -- what follows a lower mark is the mark that was placed, or what followed it before
        cases rest with
        | nil =>
            obtain rfl := Option.mem_some_iff.mp first
            exact fun _ => lower.2.le
        | cons f more =>
            rw [place] at first
            split_ifs at first
            · obtain rfl := Option.mem_some_iff.mp first
              exact (List.isChain_cons_cons.mp ordered).1
            · obtain rfl := Option.mem_some_iff.mp first
              exact fun _ => lower.2.le
      · refine List.isChain_cons_cons.mpr ⟨fun mark => ?_, ordered⟩
        by_contra higher
        exact lower ⟨mark, by omega⟩

theorem inOrder_reorder (points : List CodePoint) : (reorder points).IsChain InOrder := by
  induction points with
  | nil => exact .nil
  | cons c rest ih => exact inOrder_place c ih

theorem leadingMarks_of_mark {v : Nat} (settled : decomposition v = [])
    (mark : combiningClass v ≠ 0) : leadingMarks v ≠ 0 := by
  have high := high_of_combiningClass mark
  have attached : attaches v := by simp [attaches, Nat.not_lt.mpr high, mark]
  by_cases wide : within wideLeads v
  · simp [leadingMarks, Nat.not_lt.mpr high, wide]
  · rw [leadingMarks_of_attaches settled (by simpa using wide) attached]
    decide

theorem Shuffled.runsFit {points others : List CodePoint} (same : Shuffled points others)
    (settled : ∀ c ∈ points, decomposition c.value = []) {count : Nat} :
    RunsFit count (points.map value) ↔ RunsFit count (others.map value) := by
  induction same generalizing count with
  | nil => exact Iff.rfl
  | cons c _ ih =>
      exact and_congr_right' (ih fun d member => settled d (List.mem_cons_of_mem c member))
  | @swap c d first second _ rest =>
      have one := leadingMarks_of_mark (settled c (by simp)) first
      have two := leadingMarks_of_mark (settled d (by simp)) second
      simp only [List.map_cons, RunsFit, runAfter, if_neg one, if_neg two]
      rw [Nat.add_right_comm count, ← and_assoc, ← and_assoc]
      exact and_congr_left' (by omega)
  | trans first _ ih₁ ih₂ =>
      exact (ih₁ settled).trans (ih₂ fun c member => settled c (first.perm.mem_iff.mpr member))

theorem decomposeAll_append (points more : List CodePoint) :
    decomposeAll (points ++ more) = decomposeAll points ++ decomposeAll more :=
  List.flatMap_append

theorem decomposeAll_of_settled {points : List CodePoint}
    (settled : ∀ c ∈ points, decomposition c.value = []) : decomposeAll points = points := by
  induction points with
  | nil => rfl
  | cons c rest ih =>
      obtain ⟨first, later⟩ := List.forall_mem_cons.mp settled
      rw [decomposeAll_cons, ih later]
      simp [decomposeAll, first]

theorem decomposeAll_of_whole {c : CodePoint} (whole : c.IsWhole) :
    decomposeAll [c] = (pieces c.value).map .ofValue := by
  have self : ofValue c.value = c := by rw [ofValue, ← whole.bytes]
  by_cases settled : decomposition c.value = []
  · rw [decomposeAll_of_settled (by simpa using settled), pieces_of_settled settled,
      List.map_singleton, self]
  · simp [decomposeAll, settled, pieces]

theorem settled_decomposeAll {points : List CodePoint} :
    ∀ c ∈ decomposeAll points, decomposition c.value = [] := by
  intro c member
  have value : c.value ∈ (decomposeAll points).map value := List.mem_map_of_mem member
  rw [value_decomposeAll, List.mem_flatMap] at value
  obtain ⟨v, -, piece⟩ := value
  exact settled_of_mem_pieces piece

abbrev IsRead (c : CodePoint) : Prop := c.IsWhole ∨ c.IsStray

theorem isBare_replacement : IsBare replacement := isBare_of_mem (by decide)

theorem isWhole_of_value {c : CodePoint} (read : IsRead c) (other : c.value ≠ replacement) :
    c.IsWhole :=
  read.resolve_right fun stray => other (value_of_broken stray.isBroken)

theorem read_joined {a b : CodePoint} {v : Nat} (composed : composite? a.value b.value = some v) :
    IsRead (.ofValue v) :=
  .inl ⟨(composite_scalar composed).1, rfl⟩

theorem read_breakRuns {points : List CodePoint} (read : ∀ c ∈ points, IsRead c) (count : Nat) :
    ∀ c ∈ breakRuns count points, IsRead c := by
  intro c member
  rcases mem_breakRuns member with rfl | old
  · exact .inl ⟨by decide, rfl⟩
  · exact read c old

theorem read_decomposeAll {points : List CodePoint} (read : ∀ c ∈ points, IsRead c) :
    ∀ c ∈ decomposeAll points, IsRead c := by
  intro p member
  obtain ⟨c, old, piece⟩ := mem_decomposeAll.mp member
  rcases read c old with whole | stray
  · rw [decomposeAll_of_whole whole, List.mem_map] at piece
    obtain ⟨v, part, rfl⟩ := piece
    exact .inl ⟨scalar_of_mem_pieces whole.scalar part, rfl⟩
  · have settled : ∀ d ∈ [c], decomposition d.value = [] := by
      simpa [value_of_broken stray.isBroken] using isBare_replacement.settled
    rw [decomposeAll_of_settled settled, List.mem_singleton] at piece
    exact piece ▸ .inr stray

/-- Marks held back in reverse order have no higher class than the last of them. -/
theorem below_last {m : CodePoint} {marks : List CodePoint}
    (ordered : (m :: marks).reverse.IsChain InOrder)
    (held : ∀ c ∈ m :: marks, combiningClass c.value ≠ 0) :
    ∀ c ∈ m :: marks, combiningClass c.value ≤ combiningClass m.value := by
  induction marks generalizing m with
  | nil => simp
  | cons n rest ih =>
      rw [List.isChain_reverse] at ordered
      obtain ⟨next, later⟩ := List.isChain_cons_cons.mp ordered
      obtain ⟨first, others⟩ := List.forall_mem_cons.mp held
      have step : combiningClass n.value ≤ combiningClass m.value := next first
      have bound := ih (List.isChain_reverse.mpr later) others
      intro c member
      rcases List.mem_cons.mp member with rfl | inside
      · exact le_rfl
      · exact (bound c inside).trans step

section Unblocked

-- A code point that is joined to the start is of a higher class than the last of the marks between.
variable {c : CodePoint} {marks rest : List CodePoint}
  (free : ∀ m ∈ marks.head?, combiningClass m.value < combiningClass c.value)

include free

theorem inOrder_of_unblocked (ordered : (marks.reverse ++ c :: rest).IsChain InOrder) :
    (marks.reverse ++ rest).IsChain InOrder := by
  obtain ⟨front, back, -⟩ := List.isChain_append.mp ordered
  refine List.isChain_append.mpr ⟨front, back.of_cons, fun m last e head mark => ?_⟩
  rw [List.getLast?_reverse] at last
  have lower := free m last
  have higher := (List.isChain_cons.mp back).1 e head mark
  omega

theorem shuffled_unblocked (ordered : marks.reverse.IsChain InOrder)
    (held : ∀ m ∈ marks, combiningClass m.value ≠ 0) :
    Shuffled (c :: (marks.reverse ++ rest)) (marks.reverse ++ c :: rest) := by
  cases marks with
  | nil => exact .refl _
  | cons last more =>
      have lower := free last rfl
      refine .move (fun _ => by omega) (fun m member => ?_) rest
      rw [List.mem_reverse] at member
      have bound := below_last ordered held m member
      exact ⟨held m member, by omega⟩

end Unblocked

/-- Composing is undone by decomposing and ordering: a code point that was joined to the start comes
back before the marks it was joined over. -/
theorem shuffled_composeFrom {start : CodePoint} {marks points : List CodePoint}
    (first : IsRead start)
    (held : ∀ c ∈ marks, decomposition c.value = [] ∧ combiningClass c.value ≠ 0)
    (later : ∀ c ∈ points, decomposition c.value = [] ∧ IsRead c)
    (ordered : (marks.reverse ++ points).IsChain InOrder) :
    Shuffled (decomposeAll (composeFrom start marks points))
      (decomposeAll [start] ++ (marks.reverse ++ points)) := by
  have settled : decomposeAll marks.reverse = marks.reverse :=
    decomposeAll_of_settled fun c member => (held c (List.mem_reverse.mp member)).1
  induction points generalizing start marks with
  | nil =>
      rw [composeFrom, decomposeAll_cons, settled, List.append_nil]
      exact .refl _
  | cons c rest ih =>
      obtain ⟨next, others⟩ := List.forall_mem_cons.mp later
      obtain ⟨front, back, -⟩ := List.isChain_append.mp ordered
      rcases composeFrom_cons start c marks rest with
        ⟨v, composed, free, same⟩ | ⟨starter, same⟩ | ⟨mark, same⟩ <;> rw [same]
      -- `c` is joined to the start: it comes back right after it and moves over the marks held back
      · have proper := composite_scalar composed
        have whole := isWhole_of_value first proper.2.1
        have joined : c.IsWhole := isWhole_of_value next.2 proper.2.2
        have undone : decomposeAll [.ofValue v] = decomposeAll [start] ++ [c] := by
          have self : ofValue c.value = c := by rw [ofValue, ← joined.bytes]
          rw [decomposeAll_of_whole ⟨proper.1, rfl⟩, decomposeAll_of_whole whole, ofValue,
            pieces_of_split (decomposition_of_composite composed), List.map_append,
            List.map_singleton, self]
        have moved := @shuffled_unblocked c marks rest free front fun m member => (held m member).2
        have result := ih (read_joined composed) held others (inOrder_of_unblocked free ordered)
          settled
        rw [undone, List.append_assoc] at result
        exact result.trans (moved.append_left _)
      -- `c` is the next start: the marks held back are given out before it
      · have result := @ih c [] next.2 (by simp) others back.of_cons rfl
        have alone : decomposeAll [c] = [c] := decomposeAll_of_settled (by simpa using next.1)
        rw [alone] at result
        rw [decomposeAll_append, decomposeAll_cons, settled, List.append_assoc]
        exact (result.append_left _).append_left _
      -- `c` is held back with the other marks
      · have keeps : ∀ d ∈ c :: marks, decomposition d.value = [] ∧ combiningClass d.value ≠ 0 :=
          List.forall_mem_cons.mpr ⟨⟨next.1, mark⟩, held⟩
        have shifted : (c :: marks).reverse ++ rest = marks.reverse ++ c :: rest := by simp
        rw [← shifted]
        exact ih first keeps others (by rwa [shifted])
          (decomposeAll_of_settled fun d member => (keeps d (List.mem_reverse.mp member)).1)

theorem shuffled_compose {points : List CodePoint}
    (settled : ∀ c ∈ points, decomposition c.value = []) (read : ∀ c ∈ points, IsRead c)
    (ordered : points.IsChain InOrder) : Shuffled (decomposeAll (compose points)) points := by
  cases points with
  | nil => exact .nil
  | cons c rest =>
      have later : ∀ d ∈ rest, decomposition d.value = [] ∧ IsRead d := fun d member =>
        ⟨settled d (List.mem_cons_of_mem c member), read d (List.mem_cons_of_mem c member)⟩
      have result := @shuffled_composeFrom c [] rest (read c (List.mem_cons_self ..)) (by simp) later
        ordered.of_cons
      have alone : decomposeAll [c] = [c] :=
        decomposeAll_of_settled (by simpa using settled c (List.mem_cons_self ..))
      rwa [alone] at result

theorem read_compose {points : List CodePoint} (read : ∀ c ∈ points, IsRead c) :
    ∀ c ∈ compose points, IsRead c := by
  cases points with
  | nil => simp [compose]
  | cons c rest =>
      obtain ⟨first, later⟩ := List.forall_mem_cons.mp read
      exact forall_mem_composeFrom (fun a b v _ _ composed => read_joined composed) first (by simp)
        later

open Text

theorem not_broken_of_mark {c : CodePoint} (mark : combiningClass c.value ≠ 0) :
    c.isBroken = false := by
  by_contra broken
  rw [value_of_broken (by simpa using broken)] at mark
  exact mark isBare_replacement.starter

theorem not_broken_ofValue (v : Nat) : (ofValue v).isBroken = false := by
  rw [isBroken, Bool.and_eq_false_iff, or_iff_not_imp_left]
  intro same
  have value : v = replacement := by simpa [ofValue] using same
  rw [value]
  decide

theorem outline_cons_congr (c : CodePoint) {points others : List CodePoint}
    (same : outline points = outline others) : outline (c :: points) = outline (c :: others) := by
  rw [outline, outline, same]

theorem outline_breakRuns {count : Nat} (small : count ≤ maxMarks) (points : List CodePoint) :
    outline (breakRuns count points) = outline points := by
  induction points generalizing count with
  | nil => rfl
  | cons c rest ih =>
      have lead := leadingMarks_le c.value
      have trail := trailingMarks_le c.value
      rw [maxMarks] at small
      rw [breakRuns]
      split_ifs with long starts
      · have whole : c.isBroken = false := by
          by_contra broken
          rw [value_of_broken (by simpa using broken), isBare_replacement.leadingMarks,
            maxMarks] at long
          omega
        have joins : joiner.isBroken = false := not_broken_ofValue _
        rw [outline_whole joins, outline_whole whole, outline_whole whole, gap_gap,
          ih (by rw [maxMarks]; omega)]
      · exact outline_cons_congr c (ih (by rw [maxMarks]; omega))
      · exact outline_cons_congr c (ih (by omega))

theorem outline_decomposeAll (points : List CodePoint) :
    outline (decomposeAll points) = outline points := by
  induction points with
  | nil => rfl
  | cons c rest ih =>
      rw [decomposeAll_cons]
      rcases split_cases c with same | ⟨splits, same⟩
      · rw [same, List.singleton_append]
        exact outline_cons_congr c ih
      · have whole : c.isBroken = false := by
          by_contra broken
          rw [value_of_broken (by simpa using broken)] at splits
          exact splits isBare_replacement.settled
        have pieces : ∀ p ∈ decomposeAll [c], p.isBroken = false := by
          intro p member
          rw [same, List.mem_map] at member
          obtain ⟨v, -, rfl⟩ := member
          exact not_broken_ofValue v
        rw [outline_run (pieces_ne_nil c) pieces, outline_whole whole, ih]

theorem Shuffled.outline_eq {points others : List CodePoint} (same : Shuffled points others) :
    outline points = outline others := by
  induction same with
  | nil => rfl
  | cons c _ ih => exact outline_cons_congr c ih
  | swap first second _ rest =>
      simp only [outline_whole (not_broken_of_mark first), outline_whole (not_broken_of_mark second)]
  | trans _ _ first second => exact first.trans second

def ordered (points : List CodePoint) : List CodePoint :=
  reorder (decomposeAll (breakRuns 0 points))

variable {points : List CodePoint}

theorem settled_ordered : ∀ c ∈ ordered points, decomposition c.value = [] := fun c member =>
  settled_decomposeAll c ((reorder_perm _).mem_iff.mp member)

theorem read_ordered (read : ∀ c ∈ points, IsRead c) : ∀ c ∈ ordered points, IsRead c :=
  fun c member =>
    read_decomposeAll (read_breakRuns read 0) c ((reorder_perm _).mem_iff.mp member)

theorem runsFit_ordered : RunsFit 0 ((ordered points).map value) := by
  rw [ordered, ← (shuffled_reorder _).runsFit settled_decomposeAll, runsFit_decomposeAll]
  exact runsFit_breakRuns (Nat.zero_le _) points

theorem outline_ordered : outline (ordered points) = outline points := by
  rw [ordered, ← (shuffled_reorder _).outline_eq, outline_decomposeAll,
    outline_breakRuns (Nat.zero_le _)]

theorem shuffled_compose_ordered (read : ∀ c ∈ points, IsRead c) :
    Shuffled (decomposeAll (compose (ordered points))) (ordered points) :=
  shuffled_compose settled_ordered (read_ordered read) (inOrder_reorder _)

theorem outline_compose_ordered (read : ∀ c ∈ points, IsRead c) :
    outline (compose (ordered points)) = outline points := by
  rw [← outline_decomposeAll, (shuffled_compose_ordered read).outline_eq, outline_ordered]

/-- What was composed needs no break and decomposes to what it was composed from. -/
theorem ordered_compose_ordered (read : ∀ c ∈ points, IsRead c) :
    ordered (compose (ordered points)) = ordered points := by
  have back := shuffled_compose_ordered read
  have fits : RunsFit 0 ((compose (ordered points)).map value) := by
    rw [← runsFit_decomposeAll, back.runsFit settled_decomposeAll]
    exact runsFit_ordered
  calc ordered (compose (ordered points))
      = reorder (decomposeAll (compose (ordered points))) := by
        rw [ordered, breakRuns_of_runsFit fits]
    _ = reorder (ordered points) := back.reorder_eq
    _ = ordered points := reorder_of_inOrder (inOrder_reorder _)

end Normal

namespace Text

open BorrowChecker.Normal

/-- A composed text is composed already. -/
theorem normalize_normalize (text : Text) : text.normalize.normalize = text.normalize := by
  by_cases ascii : text.all (· < 0x80)
  · have same : text.normalize = text := if_pos ascii
    rw [same, same]
  have composed : text.normalize = ofCodePoints (compose (ordered text.codePoints)) := if_neg ascii
  by_cases plain : text.normalize.all (· < 0x80)
  · exact if_pos plain
  have read : ∀ c ∈ text.codePoints, IsRead c := fun c member => whole_or_stray_of_mem member
  have stands : Stands (outline text.codePoints) := by
    rw [← codePoints_ofCodePoints_iff read, ofCodePoints_codePoints]
  have readBack : text.normalize.codePoints = compose (ordered text.codePoints) := by
    rw [composed, codePoints_ofCodePoints_iff (read_compose (read_ordered read)),
      outline_compose_ordered read]
    exact stands
  calc text.normalize.normalize
      = ofCodePoints (compose (ordered text.normalize.codePoints)) := if_neg plain
    _ = ofCodePoints (compose (ordered text.codePoints)) := by
        rw [readBack, ordered_compose_ordered read]
    _ = text.normalize := composed.symm

end Text

end BorrowChecker
