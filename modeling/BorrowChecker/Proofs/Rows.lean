import BorrowChecker.View.Progress
import Mathlib.Data.List.Induction
import Mathlib.Data.List.Nodup

/-!
The rows of a live view. A new row is put in between others and moves those behind it, and events
find their rows through an index that is mended only from there on. What the rows should be is said
without either: the files in order, each followed by its bodies in the order of their first events,
and in every row what the last events about it said. Main statement: after every run of events about
known files the rows are these, and the index is exact (`rows_grouped`).
-/

namespace BorrowChecker

namespace View

namespace RowIndex

theorem position?_enter (index : RowIndex) (key other : RowKey) (position : Nat) :
    (index.enter key position).position? other =
      if other = key then some position else index.position? other := by
  unfold enter position?
  by_cases same : other = key
  · simp [same]
  · simp only [List.lookup_cons, beq_false_of_ne same, if_neg same]
    induction index with
    | nil => rfl
    | cons entry rest ih =>
        by_cases gone : entry.1 = key
        · rw [List.filter_cons_of_neg (by simp [gone]), ih, List.lookup_cons,
            beq_false_of_ne (gone ▸ same)]
        · rw [List.filter_cons_of_pos (by simp [gone]), List.lookup_cons, List.lookup_cons, ih]

theorem position?_enterAll_of_not_mem {rows : List Row} {key : RowKey}
    (absent : key ∉ rows.map Row.key) (index : RowIndex) (position : Nat) :
    (index.enterAll position rows).position? key = index.position? key := by
  induction rows generalizing index position with
  | nil => rfl
  | cons r rest ih =>
      simp only [List.map_cons, List.mem_cons, not_or] at absent
      rw [enterAll, ih absent.2, position?_enter, if_neg absent.1]

theorem position?_enterAll {rows : List Row} (distinct : (rows.map Row.key).Nodup) {key : RowKey}
    {i : Nat} (stands : (rows.map Row.key)[i]? = some key) (index : RowIndex) (position : Nat) :
    (index.enterAll position rows).position? key = some (position + i) := by
  induction rows generalizing index position i with
  | nil => simp at stands
  | cons r rest ih =>
      simp only [List.map_cons, List.nodup_cons] at distinct
      cases i with
      | zero =>
          obtain rfl : r.key = key := by simpa using stands
          rw [enterAll, position?_enterAll_of_not_mem distinct.1, position?_enter, if_pos rfl]
          rfl
      | succ i =>
          rw [enterAll, ih distinct.2 (by simpa using stands)]
          congr 1
          omega

/-- An index gives for every key where it stands, and nothing for any other. -/
def Exact (index : RowIndex) (keys : List RowKey) : Prop :=
  ∀ key i, index.position? key = some i ↔ keys[i]? = some key

variable {index : RowIndex} {keys : List RowKey}

theorem Exact.nodup (exact : index.Exact keys) : keys.Nodup := by
  rw [List.nodup_iff_getElem?_ne_getElem?]
  intro i j earlier inside same
  have present : keys[j]? = some keys[j] := List.getElem?_eq_getElem inside
  have first := (exact keys[j] i).mpr (same.trans present)
  have second := (exact keys[j] j).mpr present
  rw [first, Option.some.injEq] at second
  omega

theorem Exact.position?_of_mem (exact : index.Exact keys) {key : RowKey} (member : key ∈ keys) :
    ∃ i, index.position? key = some i ∧ keys[i]? = some key := by
  obtain ⟨i, stands⟩ := List.mem_iff_getElem?.mp member
  exact ⟨i, (exact key i).mpr stands, stands⟩

theorem Exact.position?_of_not_mem (exact : index.Exact keys) {key : RowKey}
    (absent : key ∉ keys) : index.position? key = none := by
  cases found : index.position? key with
  | none => rfl
  | some i => exact absurd (List.mem_of_getElem? ((exact key i).mp found)) absent

/-- The index stays exact when only the rows from the new one on are entered anew. -/
theorem Exact.enterAll {before after : List RowKey} (exact : index.Exact (before ++ after))
    {key : RowKey} (new : key ∉ before ++ after) {moved : List Row}
    (shifted : moved.map Row.key = key :: after) :
    (index.enterAll before.length moved).Exact (before ++ key :: after) := by
  have distinct : (before ++ key :: after).Nodup :=
    List.nodup_middle.mpr (List.nodup_cons.mpr ⟨new, exact.nodup⟩)
  have distinctMoved : (moved.map Row.key).Nodup := shifted ▸ distinct.of_append_right
  intro other i
  by_cases isMoved : other ∈ key :: after
  · -- What stands at or behind the new row is found where it was just entered.
    obtain ⟨j, stands⟩ := List.mem_iff_getElem?.mp isMoved
    have whole : (before ++ key :: after)[before.length + j]? = some other := by
      rw [List.getElem?_append_right (by omega), Nat.add_sub_cancel_left, stands]
    rw [position?_enterAll distinctMoved (shifted ▸ stands), Option.some.injEq]
    constructor
    · rintro rfl
      exact whole
    · intro here
      have inside := (List.getElem?_eq_some_iff.mp whole).1
      exact (List.getElem?_inj inside distinct).mp (whole.trans here.symm)
  · -- What stands before it keeps its position and its entry.
    rw [position?_enterAll_of_not_mem (shifted ▸ isMoved), exact other i]
    have behind : ∀ rest : List RowKey, other ∉ rest →
        ((before ++ rest)[i]? = some other ↔ before[i]? = some other) := by
      intro rest outside
      by_cases early : i < before.length
      · rw [List.getElem?_append_left early]
      · have past : before[i]? = none := List.getElem?_eq_none (by omega)
        rw [List.getElem?_append_right (by omega), past]
        simp only [reduceCtorEq, iff_false]
        exact fun here => outside (List.mem_of_getElem? here)
    rw [behind after fun later => isMoved (List.mem_cons_of_mem _ later), behind _ isMoved]

end RowIndex

namespace Progress

structure Lists (p : Progress) (keys : List RowKey) (row : RowKey → Row) : Prop where
  rows : p.rows = keys.map row
  index : p.index.Exact keys
  named : ∀ key, (row key).key = key

variable {p : Progress} {keys before after : List RowKey} {row : RowKey → Row} {key : RowKey}

theorem Lists.keys_eq (lists : p.Lists keys row) : p.rows.map Row.key = keys := by
  rw [lists.rows, List.map_map]
  exact List.map_id'' lists.named keys

theorem Lists.ensure_known (lists : p.Lists keys row) (known : key ∈ keys) :
    (p.ensure key).1.Lists keys row ∧ keys[(p.ensure key).2]? = some key := by
  obtain ⟨i, found, stands⟩ := lists.index.position?_of_mem known
  unfold ensure
  rw [found]
  exact ⟨lists, stands⟩

theorem Lists.ensure_new (lists : p.Lists (before ++ after) row) (new : key ∉ before ++ after)
    (placed : place p.rows key = before.length) (fresh : row key = .fresh key) :
    (p.ensure key).1.Lists (before ++ key :: after) row ∧
      (before ++ key :: after)[(p.ensure key).2]? = some key := by
  have behind : p.rows.drop before.length = after.map row := by
    rw [lists.rows, List.map_append, List.drop_left' (List.length_map ..)]
  have ahead : p.rows.take before.length = before.map row := by
    rw [lists.rows, List.map_append, List.take_left' (List.length_map ..)]
  have shifted : (Row.fresh key :: after.map row).map Row.key = key :: after := by
    rw [← fresh, ← List.map_cons, List.map_map]
    exact List.map_id'' lists.named _
  unfold ensure
  rw [lists.index.position?_of_not_mem new]
  simp only [insert, placed, behind, ahead]
  refine ⟨⟨?_, lists.index.enterAll new shifted, lists.named⟩, ?_⟩
  · rw [← fresh, List.map_append, List.map_cons]
  · simp

theorem endOfFile_append {front after : List Row} {r : Row} {file : Text} (same : r.file = file)
    (others : ∀ r ∈ after, r.file ≠ file) :
    endOfFile file (front ++ [r] ++ after) = front.length + 1 := by
  have skipped : (after.reverse ++ r :: front.reverse).takeWhile (fun r => r.file != file) =
      after.reverse := by
    rw [List.takeWhile_append_of_pos (by simpa using others), List.takeWhile_cons_of_neg (by simp [same]),
      List.append_nil]
  unfold endOfFile
  simp only [List.reverse_append, List.reverse_cons, List.reverse_nil, List.nil_append,
    List.singleton_append, skipped, List.length_reverse, List.length_append, List.length_singleton]
  rw [if_neg (by omega)]
  omega

def bodiesOf (events : List ProgressEvent) (file : Text) : List Text :=
  ((events.filter fun e => e.file = file ∧ e.body ≠ []).map ProgressEvent.body).eraseDups

def groupOf (events : List ProgressEvent) (file : Text) : List RowKey :=
  ⟨file, []⟩ :: (bodiesOf events file).map fun body => ⟨file, body⟩

/-- What there should be rows for: each file once, where it first occurs, and behind it its bodies. -/
def keysFor (files : List Text) (events : List ProgressEvent) : List RowKey :=
  files.eraseDups.flatMap (groupOf events)

def label (e : ProgressEvent) : Text := statusLabel e.stage e.status

def last? (events : List ProgressEvent) (key : RowKey) : Option ProgressEvent :=
  (events.filter fun e => keyOf e = key).getLast?

def lastWord? (events : List ProgressEvent) (key : RowKey) : Option ProgressEvent :=
  (events.filter fun e => keyOf e = key ∧ label e ≠ []).getLast?

def rowFor (events : List ProgressEvent) (key : RowKey) : Row where
  file := key.file
  body := key.body
  status := ((lastWord? events key).map label).getD "queued"
  stage := ((lastWord? events key).map ProgressEvent.stage).getD (.other [])
  errors := ((last? events key).map ProgressEvent.errors).getD 0

theorem eraseDups_concat {α : Type} [BEq α] [LawfulBEq α] [DecidableEq α] (xs : List α) (x : α) :
    (xs ++ [x]).eraseDups = if x ∈ xs then xs.eraseDups else xs.eraseDups ++ [x] := by
  rw [List.eraseDups_append]
  by_cases old : x ∈ xs
  · simp [List.removeAll, old]
  · simp [List.removeAll, old, List.eraseDups_cons]

theorem nodup_eraseDups {α : Type} [BEq α] [LawfulBEq α] [DecidableEq α] (xs : List α) :
    xs.eraseDups.Nodup := by
  induction xs using List.reverseRecOn with
  | nil => simp
  | append_singleton xs x ih =>
      rw [eraseDups_concat]
      split
      · exact ih
      · rename_i new
        refine ih.append (List.nodup_singleton x) ?_
        simpa [List.mem_eraseDups] using new

variable {files : List Text} {events : List ProgressEvent} {e : ProgressEvent}

theorem mem_bodiesOf {file body : Text} :
    body ∈ bodiesOf events file ↔ body ≠ [] ∧ ∃ e ∈ events, keyOf e = ⟨file, body⟩ := by
  simp only [bodiesOf, List.mem_eraseDups, List.mem_map, List.mem_filter, decide_eq_true_eq, keyOf,
    RowKey.mk.injEq]
  constructor
  · rintro ⟨e, ⟨member, here, named⟩, rfl⟩
    exact ⟨named, e, member, here, rfl⟩
  · rintro ⟨named, e, member, here, rfl⟩
    exact ⟨e, ⟨member, here, named⟩, rfl⟩

theorem mem_keysFor {key : RowKey} : key ∈ keysFor files events ↔
    key.file ∈ files ∧ (key.body = [] ∨ ∃ e ∈ events, keyOf e = key) := by
  obtain ⟨file, body⟩ := key
  simp only [keysFor, groupOf, List.mem_flatMap, List.mem_eraseDups, List.mem_cons, List.mem_map,
    RowKey.mk.injEq, mem_bodiesOf]
  constructor
  · rintro ⟨_, listed, ⟨rfl, rfl⟩ | ⟨_, ⟨named, seen⟩, rfl, rfl⟩⟩
    · exact ⟨listed, .inl rfl⟩
    · exact ⟨listed, .inr seen⟩
  · rintro ⟨listed, seen⟩
    by_cases named : body = []
    · exact ⟨file, listed, .inl ⟨rfl, named⟩⟩
    · exact ⟨file, listed, .inr ⟨body, ⟨named, seen.resolve_left named⟩, rfl, rfl⟩⟩

/-- An event adds its body to those of its file when it is the first about it. -/
theorem bodiesOf_concat (events : List ProgressEvent) (e : ProgressEvent) (file : Text) :
    bodiesOf (events ++ [e]) file =
      if e.file = file ∧ e.body ≠ [] ∧ ¬ ∃ f ∈ events, keyOf f = keyOf e then
        bodiesOf events file ++ [e.body]
      else bodiesOf events file := by
  by_cases counts : e.file = file ∧ e.body ≠ []
  · obtain ⟨rfl, named⟩ := counts
    have kept : [e].filter (fun f => f.file = e.file ∧ f.body ≠ []) = [e] :=
      List.filter_cons_of_pos (by simpa using named)
    have seen : e.body ∈ (events.filter fun f => f.file = e.file ∧ f.body ≠ []).map
        ProgressEvent.body ↔ ∃ f ∈ events, keyOf f = keyOf e := by
      rw [← List.mem_eraseDups]
      exact mem_bodiesOf.trans (and_iff_right named)
    rw [bodiesOf, List.filter_append, kept, List.map_append, List.map_singleton, eraseDups_concat]
    by_cases old : ∃ f ∈ events, keyOf f = keyOf e
    · rw [if_pos (seen.mpr old), if_neg fun all => all.2.2 old, bodiesOf]
    · rw [if_neg (mt seen.mp old), if_pos ⟨rfl, named, old⟩, bodiesOf]
  · have skipped : [e].filter (fun f => f.file = file ∧ f.body ≠ []) = [] :=
      List.filter_cons_of_neg (by simpa using counts)
    rw [if_neg fun all => counts ⟨all.1, all.2.1⟩, bodiesOf, List.filter_append, skipped,
      List.append_nil, bodiesOf]

theorem groupOf_concat_of_seen (seen : e.body = [] ∨ ∃ f ∈ events, keyOf f = keyOf e) (file : Text) :
    groupOf (events ++ [e]) file = groupOf events file := by
  rw [groupOf, groupOf, bodiesOf_concat, if_neg]
  rintro ⟨_, named, unseen⟩
  exact seen.elim named unseen

theorem groupOf_concat_of_ne {file : Text} (other : e.file ≠ file) :
    groupOf (events ++ [e]) file = groupOf events file := by
  rw [groupOf, groupOf, bodiesOf_concat, if_neg fun all => other all.1]

theorem keysFor_concat_known (known : keyOf e ∈ keysFor files events) :
    keysFor files (events ++ [e]) = keysFor files events := by
  have seen := (mem_keysFor.mp known).2
  exact List.flatMap_congr fun file _ => groupOf_concat_of_seen seen file

theorem file_of_groupOf {file : Text} {key : RowKey} (member : key ∈ groupOf events file) :
    key.file = file := by
  rcases List.mem_cons.mp member with rfl | named
  · rfl
  · obtain ⟨_, _, rfl⟩ := List.mem_map.mp named
    rfl

theorem first_of_not_mem (listed : e.file ∈ files) (new : keyOf e ∉ keysFor files events) :
    e.body ≠ [] ∧ ¬ ∃ f ∈ events, keyOf f = keyOf e := by
  rw [mem_keysFor] at new
  exact not_or.mp fun seen => new ⟨listed, seen⟩

/-- The first event about a body puts its key behind the others of its file, and what is further
behind is about other files. -/
theorem keysFor_concat_new (listed : e.file ∈ files) (new : keyOf e ∉ keysFor files events) :
    ∃ front key after, keysFor files events = front ++ [key] ++ after ∧
      keysFor files (events ++ [e]) = front ++ [key] ++ keyOf e :: after ∧
      key.file = e.file ∧ ∀ other ∈ after, other.file ≠ e.file := by
  have first := first_of_not_mem listed new
  obtain ⟨ahead, behind, spelled⟩ := List.append_of_mem (List.mem_eraseDups.mpr listed)
  have distinct := nodup_eraseDups files
  rw [spelled, List.nodup_middle, List.nodup_cons, List.mem_append, not_or] at distinct
  obtain ⟨⟨notAhead, notBehind⟩, _⟩ := distinct
  have group : groupOf (events ++ [e]) e.file = groupOf events e.file ++ [keyOf e] := by
    rw [groupOf, groupOf, bodiesOf_concat, if_pos ⟨rfl, first⟩, List.map_append]
    rfl
  have unchanged : ∀ others : List Text, e.file ∉ others →
      others.flatMap (groupOf (events ++ [e])) = others.flatMap (groupOf events) := by
    intro others absent
    refine List.flatMap_congr fun file member => groupOf_concat_of_ne ?_
    rintro rfl
    exact absent member
  have closed : ∃ front key, groupOf events e.file = front ++ [key] :=
    (List.eq_nil_or_concat' _).resolve_left (List.cons_ne_nil _ _)
  obtain ⟨front, key, ends⟩ := closed
  refine ⟨ahead.flatMap (groupOf events) ++ front, key, behind.flatMap (groupOf events),
    ?_, ?_, ?_, ?_⟩
  · rw [keysFor, spelled, List.flatMap_append, List.flatMap_cons, ends]
    simp
  · rw [keysFor, spelled, List.flatMap_append, List.flatMap_cons, group, ends,
      unchanged ahead notAhead, unchanged behind notBehind]
    simp
  · exact file_of_groupOf (ends ▸ List.mem_append_right front (List.mem_singleton_self key))
  · intro other member
    obtain ⟨file, inside, here⟩ := List.mem_flatMap.mp member
    rw [file_of_groupOf here]
    rintro rfl
    exact notBehind inside

theorem getLast?_filter_concat (events : List ProgressEvent) (e : ProgressEvent)
    (kind : ProgressEvent → Bool) : ((events ++ [e]).filter kind).getLast? =
      if kind e then some e else (events.filter kind).getLast? := by
  rw [List.filter_append]
  by_cases holds : kind e
  · simp [holds]
  · simp [holds]

theorem last?_concat (events : List ProgressEvent) (e : ProgressEvent) (key : RowKey) :
    last? (events ++ [e]) key = if keyOf e = key then some e else last? events key := by
  simp only [last?, getLast?_filter_concat, decide_eq_true_eq]

theorem lastWord?_concat (events : List ProgressEvent) (e : ProgressEvent) (key : RowKey) :
    lastWord? (events ++ [e]) key =
      if keyOf e = key ∧ label e ≠ [] then some e else lastWord? events key := by
  simp only [lastWord?, getLast?_filter_concat, decide_eq_true_eq]

theorem rowFor_concat (events : List ProgressEvent) (e : ProgressEvent) (key : RowKey) :
    rowFor (events ++ [e]) key =
      if key = keyOf e then applyTo e (rowFor events key) else rowFor events key := by
  by_cases here : key = keyOf e
  · subst here
    unfold rowFor applyTo
    rw [last?_concat, lastWord?_concat]
    by_cases silent : label e = []
    · have nothing : statusLabel e.stage e.status = [] := silent
      simp [silent, nothing]
    · have something : statusLabel e.stage e.status ≠ [] := silent
      simp [silent, something]
      rfl
  · have other : keyOf e ≠ key := Ne.symm here
    unfold rowFor
    rw [last?_concat, lastWord?_concat, if_neg here, if_neg other, if_neg fun both => other both.1]

theorem rowFor_of_unseen {key : RowKey} (unseen : ¬ ∃ e ∈ events, keyOf e = key) :
    rowFor events key = .fresh key := by
  have silent : last? events key = none := by
    rw [last?, List.getLast?_eq_none_iff, List.filter_eq_nil_iff]
    intro e member here
    exact unseen ⟨e, member, of_decide_eq_true here⟩
  have wordless : lastWord? events key = none := by
    rw [lastWord?, List.getLast?_eq_none_iff, List.filter_eq_nil_iff]
    intro e member here
    exact unseen ⟨e, member, (of_decide_eq_true here).1⟩
  simp [rowFor, silent, wordless, Row.fresh]

/-- To change the only row of a key is to change what the key stands for. -/
theorem map_modify {keys : List RowKey} (distinct : keys.Nodup) {key : RowKey} {i : Nat}
    (stands : keys[i]? = some key) (row : RowKey → Row) (change : Row → Row) :
    (keys.map row).modify i change =
      keys.map fun other => if other = key then change (row other) else row other := by
  have inside := (List.getElem?_eq_some_iff.mp stands).1
  apply List.ext_getElem?
  intro j
  rw [List.getElem?_modify, List.getElem?_map, List.getElem?_map]
  cases found : keys[j]? with
  | none => simp
  | some other =>
      have same : other = key ↔ i = j := by
        rw [← List.getElem?_inj inside distinct, stands, found, Option.some.injEq, eq_comm]
      by_cases here : i = j
      · simp [here, same.mpr here]
      · simp [here, mt same.mp here]

def Agrees (p : Progress) (files : List Text) (events : List ProgressEvent) : Prop :=
  p.Lists (keysFor files events) (rowFor events)

theorem keysFor_nil (files : List Text) :
    keysFor files [] = files.eraseDups.map fun file => ⟨file, []⟩ := by
  rw [keysFor, ← List.flatMap_pure_eq_map]
  rfl

/-- Opening a view: one more file puts a row at the end, unless it has one. -/
theorem Agrees.ensure_file (agrees : p.Agrees files []) (file : Text) :
    (p.ensure { file }).1.Agrees (files ++ [file]) [] := by
  unfold Agrees at agrees ⊢
  by_cases old : file ∈ files
  · have same : keysFor (files ++ [file]) [] = keysFor files [] := by
      rw [keysFor, eraseDups_concat, if_pos old, keysFor]
    rw [same]
    exact (agrees.ensure_known (mem_keysFor.mpr ⟨old, .inl rfl⟩)).1
  · have longer : keysFor (files ++ [file]) [] = keysFor files [] ++ [⟨file, []⟩] := by
      rw [keysFor_nil, keysFor_nil, eraseDups_concat, if_neg old, List.map_append]
      rfl
    have atEnd : place p.rows ⟨file, []⟩ = (keysFor files []).length := by
      rw [agrees.rows]
      simp [place]
    have new : ⟨file, []⟩ ∉ keysFor files [] ++ [] := by
      rw [List.append_nil, mem_keysFor]
      exact fun listed => old listed.1
    rw [longer]
    rw [← List.append_nil (keysFor files [])] at agrees
    exact (agrees.ensure_new new atEnd (rowFor_of_unseen (by simp))).1

theorem agrees_start (title : Text) (files : List Text) : (start title files).Agrees files [] := by
  unfold start
  induction files using List.reverseRecOn with
  | nil =>
      refine ⟨rfl, ?_, fun key => rfl⟩
      intro key i
      simp [RowIndex.position?, keysFor]
  | append_singleton files file ih =>
      rw [List.foldl_append]
      exact ih.ensure_file file

/-- One event: its row is found, or put where it belongs, and changed; the others stay. -/
theorem Agrees.receive (agrees : p.Agrees files events) (listed : e.file ∈ files) :
    (p.receive e).Agrees files (events ++ [e]) := by
  unfold Agrees at agrees ⊢
  have found : (p.ensure (keyOf e)).1.Lists (keysFor files (events ++ [e])) (rowFor events) ∧
      (keysFor files (events ++ [e]))[(p.ensure (keyOf e)).2]? = some (keyOf e) := by
    by_cases known : keyOf e ∈ keysFor files events
    · rw [keysFor_concat_known known]
      exact agrees.ensure_known known
    · obtain ⟨front, key, after, spelled, grown, same, others⟩ := keysFor_concat_new listed known
      obtain ⟨named, unseen⟩ := first_of_not_mem listed known
      have placed : place p.rows (keyOf e) = (front ++ [key]).length := by
        have body : (keyOf e).body.isEmpty = false := by simpa [keyOf] using named
        rw [place, body, agrees.rows, spelled, List.map_append, List.map_append, List.map_singleton]
        simp only [Bool.false_eq_true, if_false]
        rw [endOfFile_append]
        · simp
        · exact same
        · intro r member
          obtain ⟨other, behind, rfl⟩ := List.mem_map.mp member
          exact others other behind
      rw [spelled] at agrees known
      rw [grown]
      exact agrees.ensure_new known placed (rowFor_of_unseen unseen)
  obtain ⟨lists, stands⟩ := found
  refine ⟨?_, lists.index, fun key => rfl⟩
  simp only [Progress.receive, lists.rows]
  rw [map_modify lists.index.nodup stands]
  exact List.map_congr_left fun key _ => (rowFor_concat events e key).symm

theorem agrees_run (title : Text) (known : ∀ e ∈ events, e.file ∈ files) :
    (events.foldl Progress.receive (start title files)).Agrees files events := by
  induction events using List.reverseRecOn with
  | nil => exact agrees_start title files
  | append_singleton events e ih =>
      rw [List.foldl_append]
      have earlier := ih fun f member => known f (List.mem_append_left _ member)
      exact earlier.receive (known e (by simp))

/-- After every run of events about the files of a view, its rows stand for the files, each once and
in the order of first occurrence, and behind each file for its bodies in the order of their first
events; no two rows are about the same; the index gives for every key where its row stands, and for
nothing else; and a row shows the number of errors of the last event about it, and the label of the
last one that has a label. -/
theorem rows_grouped (title : Text) {files : List Text} {events : List ProgressEvent}
    (known : ∀ e ∈ events, e.file ∈ files) :
    (events.foldl receive (start title files)).rows.map Row.key = keysFor files events ∧
    ((events.foldl receive (start title files)).rows.map Row.key).Nodup ∧
    (∀ key i, (events.foldl receive (start title files)).index.position? key = some i ↔
      ((events.foldl receive (start title files)).rows.map Row.key)[i]? = some key) ∧
    ∀ r ∈ (events.foldl receive (start title files)).rows,
      r.errors = ((last? events r.key).map ProgressEvent.errors).getD 0 ∧
      r.status = ((lastWord? events r.key).map label).getD "queued" := by
  have agrees := agrees_run title known
  rw [agrees.keys_eq]
  refine ⟨rfl, agrees.index.nodup, agrees.index, ?_⟩
  intro r member
  rw [agrees.rows] at member
  obtain ⟨key, _, rfl⟩ := List.mem_map.mp member
  exact ⟨rfl, rfl⟩

/-- A file that is listed twice, and events of two files in turn, one of them without a label. -/
def opened : List Text := [[97], [98], [97]]

def interleaved : List ProgressEvent :=
  [⟨[97], [102], .check, .working, 0⟩, ⟨[98], [104], .check, .queued, 0⟩,
    ⟨[97], [103], .check, .error, 2⟩, ⟨[97], [102], .report, .other [63], 3⟩,
    ⟨[98], [], .report, .done, 0⟩]

theorem interleaved_grouped :
    (∀ e ∈ interleaved, e.file ∈ opened) ∧
    (interleaved.foldl receive (start [] opened)).rows.map Row.key =
      [⟨[97], []⟩, ⟨[97], [102]⟩, ⟨[97], [103]⟩, ⟨[98], []⟩, ⟨[98], [104]⟩] ∧
    (interleaved.foldl receive (start [] opened)).index.position? ⟨[98], []⟩ = some 3 ∧
    ∀ r ∈ (interleaved.foldl receive (start [] opened)).rows,
      r.key = ⟨[97], [102]⟩ → r.errors = 3 ∧ r.status = "checking" := by
  have known : ∀ e ∈ interleaved, e.file ∈ opened := by decide
  obtain ⟨keys, _, index, shown⟩ := rows_grouped [] known
  have spelled : keysFor opened interleaved =
      [⟨[97], []⟩, ⟨[97], [102]⟩, ⟨[97], [103]⟩, ⟨[98], []⟩, ⟨[98], [104]⟩] := by decide
  refine ⟨known, keys.trans spelled, (index _ _).mpr ?_, ?_⟩
  · rw [keys, spelled]
    rfl
  · intro r member here
    obtain ⟨errors, status⟩ := shown r member
    rw [here] at errors status
    exact ⟨errors, status⟩

end Progress

end View

end BorrowChecker
