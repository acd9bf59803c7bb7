import Mathlib
import BorrowChecker.File.Host

/-!
Paths as lists of elements. A path that cannot be made shorter is written from elements of which only
the first lead upwards. Main statements: the elements of a written path are read back
(`split_written`), and putting paths together, taking the parent and taking what leads to the last
element work on the elements (`clean_under`, `parent_written`, `lead_written`).
-/

namespace BorrowChecker

/-! ## Pieces between separators -/

namespace Text

theorem splitOnByte_sep (sep : UInt8) (t : Text) :
    splitOnByte sep (sep :: t) = [] :: splitOnByte sep t := if_pos rfl

theorem splitOnByte_other {sep b : UInt8} {t piece : Text} {pieces : List Text} (other : b ≠ sep)
    (found : splitOnByte sep t = piece :: pieces) :
    splitOnByte sep (b :: t) = (b :: piece) :: pieces :=
  (if_neg other).trans (by rw [found])

theorem splitOnByte_eq_cons (sep : UInt8) (t : Text) :
    ∃ piece pieces, splitOnByte sep t = piece :: pieces := by
  induction t with
  | nil => exact ⟨[], [], rfl⟩
  | cons b rest ih =>
    obtain ⟨piece, pieces, found⟩ := ih
    by_cases same : b = sep
    · subst same
      exact ⟨_, _, splitOnByte_sep ..⟩
    · exact ⟨_, _, splitOnByte_other same found⟩

theorem not_mem_of_splitOnByte (sep : UInt8) (t : Text) : ∀ piece ∈ splitOnByte sep t, sep ∉ piece := by
  induction t with
  | nil => simp [splitOnByte]
  | cons b rest ih =>
    by_cases same : b = sep
    · subst same
      rw [splitOnByte_sep]
      simpa using ih
    · obtain ⟨piece, pieces, found⟩ := splitOnByte_eq_cons sep rest
      rw [splitOnByte_other same found]
      rw [found] at ih
      simp only [List.mem_cons, forall_eq_or_imp] at ih ⊢
      refine ⟨?_, ih.2⟩
      rintro (here | later)
      · exact same here.symm
      · exact ih.1 later

theorem splitOnByte_plain {sep : UInt8} {t : Text} (free : sep ∉ t) : splitOnByte sep t = [t] := by
  induction t with
  | nil => rfl
  | cons b rest ih =>
    rw [List.mem_cons, not_or] at free
    exact splitOnByte_other (Ne.symm free.1) (ih free.2)

theorem splitOnByte_append (sep : UInt8) (s t : Text) :
    splitOnByte sep (s ++ sep :: t) = splitOnByte sep s ++ splitOnByte sep t := by
  induction s with
  | nil => exact splitOnByte_sep sep t
  | cons b rest ih =>
    rw [List.cons_append]
    by_cases same : b = sep
    · subst same
      rw [splitOnByte_sep, splitOnByte_sep, ih, List.cons_append]
    · obtain ⟨piece, pieces, found⟩ := splitOnByte_eq_cons sep rest
      rw [found] at ih
      rw [splitOnByte_other same found]
      exact splitOnByte_other same ih

theorem joined_concat (sep : Text) {parts : List Text} (some : parts ≠ []) (last : Text) :
    joined sep (parts ++ [last]) = joined sep parts ++ sep ++ last := by
  induction parts with
  | nil => exact absurd rfl some
  | cons first rest ih =>
    cases rest with
    | nil => simp [joined, List.intercalate]
    | cons second rest =>
      have more := ih (by simp)
      simp only [joined, List.intercalate, List.cons_append, List.intersperse_cons_cons,
        List.flatten_cons] at more ⊢
      rw [more]
      simp

/-- Pieces that were put together are found again. -/
theorem splitOnByte_joined {sep : UInt8} {parts : List Text} (some : parts ≠ [])
    (free : ∀ part ∈ parts, sep ∉ part) : splitOnByte sep (joined [sep] parts) = parts := by
  induction parts using List.reverseRecOn with
  | nil => exact absurd rfl some
  | append_singleton parts last ih =>
    have plain := splitOnByte_plain (free last (by simp))
    by_cases single : parts = []
    · simpa [single, joined, List.intercalate] using plain
    · have before := ih single fun part member => free part (List.mem_append_left _ member)
      rw [joined_concat [sep] single, List.append_assoc, List.singleton_append,
        splitOnByte_append, before, plain]

end Text

/-! ## Elements -/

namespace Path

/-- An element that is neither nothing nor a point, and does not go across a slash. -/
structure IsElement (e : Text) : Prop where
  ne_nil : e ≠ []
  ne_point : e ≠ "."
  no_slash : slash ∉ e

abbrev upward : Text := ".."

/-- Elements of which only the first lead upwards, and none from the root. -/
structure Reduced (rooted : Bool) (elements : List Text) : Prop where
  each : ∀ e ∈ elements, IsElement e
  up : ∀ before after, elements = before ++ upward :: after →
    rooted = false ∧ ∀ e ∈ before, e = upward

def written (rooted : Bool) (elements : List Text) : Text :=
  (if rooted then [slash] else []) ++ Text.joined [slash] elements

variable {rooted : Bool} {elements rest done : List Text} {e : Text}

theorem isElement_upward : IsElement upward := ⟨by decide, by decide, by decide⟩

namespace Reduced

theorem nil : Reduced rooted [] := ⟨by simp, by simp⟩

theorem left (reduced : Reduced rooted (elements ++ rest)) : Reduced rooted elements := by
  refine ⟨fun e member => reduced.each e (List.mem_append_left _ member), ?_⟩
  intro before after split
  exact reduced.up before (after ++ rest) (by simp [split])

theorem each_concat (reduced : Reduced rooted elements) (element : IsElement e) :
    ∀ other ∈ elements ++ [e], IsElement other := by
  intro other member
  rcases List.mem_append.mp member with member | member
  · exact reduced.each other member
  · rw [List.mem_singleton.mp member]
    exact element

theorem concat (reduced : Reduced rooted elements) (element : IsElement e) (down : e ≠ upward) :
    Reduced rooted (elements ++ [e]) := by
  constructor
  · exact reduced.each_concat element
  · intro before after split
    -- the element that leads upwards is not the last one
    rcases List.eq_nil_or_concat after with rfl | ⟨inner, last, rfl⟩
    · exact absurd (List.append_inj_right' split rfl) (by simpa using down)
    · refine reduced.up before inner ?_
      rw [List.concat_eq_append, ← List.cons_append, ← List.append_assoc] at split
      exact List.append_inj_left' split rfl

theorem concat_up (reduced : Reduced rooted elements) (unrooted : rooted = false)
    (ups : ∀ e ∈ elements, e = upward) : Reduced rooted (elements ++ [upward]) := by
  constructor
  · exact reduced.each_concat isElement_upward
  · intro before after split
    refine ⟨unrooted, fun other member => ?_⟩
    have there : other ∈ elements ++ [upward] := by
      rw [split]
      exact List.mem_append_left _ member
    rcases List.mem_append.mp there with there | there
    · exact ups other there
    · exact List.mem_singleton.mp there

/-- All that stands before an element that leads upwards does so too. -/
theorem ups_of_concat (reduced : Reduced rooted (elements ++ [upward])) :
    rooted = false ∧ ∀ e ∈ elements ++ [upward], e = upward := by
  obtain ⟨unrooted, ups⟩ := reduced.up elements [] rfl
  refine ⟨unrooted, fun e member => ?_⟩
  rcases List.mem_append.mp member with member | member
  · exact ups e member
  · exact List.mem_singleton.mp member

end Reduced

theorem reduced_reduce (pieces : List Text) (free : ∀ piece ∈ pieces, slash ∉ piece)
    (reduced : Reduced rooted done.reverse) : Reduced rooted (reduce rooted done pieces) := by
  fun_induction reduce rooted done pieces with
  | case1 => exact reduced
  | case2 done element rest skipped ih => exact ih (fun e member => free e (by simp [member])) reduced
  | case3 rest kept ih =>
    refine ih (fun e member => free e (by simp [member])) ?_
    cases rooted with
    | false => exact Reduced.nil.concat_up rfl (by simp)
    | true => exact .nil
  | case4 rest before kept ih =>
    rw [List.reverse_cons] at reduced
    obtain ⟨unrooted, ups⟩ := reduced.ups_of_concat
    refine ih (fun e member => free e (by simp [member])) ?_
    rw [List.reverse_cons, List.reverse_cons]
    exact reduced.concat_up unrooted ups
  | case5 rest kept last before down ih =>
    rw [List.reverse_cons] at reduced
    exact ih (fun e member => free e (by simp [member])) reduced.left
  | case6 done element rest kept down ih =>
    refine ih (fun e member => free e (by simp [member])) ?_
    rw [List.reverse_cons]
    simp only [List.isEmpty_iff, not_or] at kept
    exact reduced.concat ⟨kept.1, kept.2, free element (by simp)⟩ down

/-! One step of working off elements, by the element and what stands before it. -/

theorem reduce_skip (skipped : e.isEmpty ∨ e = ".") :
    reduce rooted done (e :: rest) = reduce rooted done rest := if_pos skipped

theorem reduce_keep (kept : ¬ (e.isEmpty ∨ e = ".")) (down : e ≠ upward) :
    reduce rooted done (e :: rest) = reduce rooted (e :: done) rest :=
  (if_neg kept).trans (if_neg down)

theorem reduce_down (element : IsElement e) (down : e ≠ upward) :
    reduce rooted done (e :: rest) = reduce rooted (e :: done) rest :=
  reduce_keep (by simp [element.ne_nil, element.ne_point]) down

theorem reduce_up_first :
    reduce rooted [] (upward :: rest) = reduce rooted (if rooted then [] else [upward]) rest := rfl

theorem reduce_up_again : reduce rooted (upward :: done) (upward :: rest) =
    reduce rooted (upward :: upward :: done) rest := rfl

theorem reduce_up_back (down : e ≠ upward) :
    reduce rooted (e :: done) (upward :: rest) = reduce rooted done rest := if_neg down

/-- Elements that are reduced already stay as they are. -/
theorem reduce_of_reduced (pieces : List Text) (reduced : Reduced rooted (done.reverse ++ pieces)) :
    reduce rooted done pieces = done.reverse ++ pieces := by
  induction pieces generalizing done with
  | nil => simp [reduce]
  | cons e rest ih =>
    have next : done.reverse ++ e :: rest = (e :: done).reverse ++ rest := by simp
    have pushed := ih (next ▸ reduced)
    rw [next, ← pushed]
    by_cases up : e = upward
    · subst up
      obtain ⟨unrooted, ups⟩ := reduced.up done.reverse rest rfl
      cases done with
      | nil => rw [reduce_up_first, unrooted, if_neg Bool.false_ne_true]
      | cons last before =>
        obtain rfl : last = upward := ups last (by simp)
        exact reduce_up_again
    · exact reduce_down (reduced.each e (by simp)) up

theorem reduce_append (pieces more : List Text) :
    reduce rooted done (pieces ++ more) = reduce rooted (reduce rooted done pieces).reverse more := by
  fun_induction reduce rooted done pieces with
  | case1 done => rw [List.nil_append, List.reverse_reverse]
  | case2 done first rest skipped ih => rw [List.cons_append, reduce_skip skipped, ih]
  | case3 rest kept ih => rw [List.cons_append, reduce_up_first, ih]
  | case4 rest before kept ih => rw [List.cons_append, reduce_up_again, ih]
  | case5 rest last before other kept ih => rw [List.cons_append, reduce_up_back other, ih]
  | case6 done first rest kept other ih => rw [List.cons_append, reduce_keep kept other, ih]

/-- A last element that leads downwards stays the last. -/
theorem reduce_concat (pieces : List Text) (element : IsElement e) (down : e ≠ upward) :
    reduce rooted done (pieces ++ [e]) = reduce rooted done pieces ++ [e] := by
  rw [reduce_append, reduce_down element down, reduce, List.reverse_cons, List.reverse_reverse]

/-! ## Written paths -/

theorem written_concat (some : elements ≠ []) :
    written rooted (elements ++ [e]) = written rooted elements ++ slash :: e := by
  simp [written, Text.joined_concat [slash] some]

theorem written_singleton : written rooted [e] = (if rooted then [slash] else []) ++ e := by
  simp [written, Text.joined, List.intercalate]

/-- The pieces of a written path: nothing stands before the first slash of a rooted one. -/
theorem split_written (each : ∀ e ∈ elements, IsElement e) (some : elements ≠ []) :
    (written rooted elements).splitOnByte slash = (if rooted then [[]] else []) ++ elements := by
  induction elements using List.reverseRecOn with
  | nil => exact absurd rfl some
  | append_singleton before e ih =>
    have last := Text.splitOnByte_plain (each e (by simp)).no_slash
    cases before with
    | nil =>
      rw [List.nil_append, written_singleton]
      cases rooted with
      | false => simp [last]
      | true =>
        have pieces := Text.splitOnByte_append slash [] e
        rw [last] at pieces
        exact pieces
    | cons first rest =>
      rw [written_concat (by simp), Text.splitOnByte_append, last,
        ih (fun other member => each other (List.mem_append_left _ member)) (by simp),
        List.append_assoc]

theorem isRooted_written (each : ∀ e ∈ elements, IsElement e) (some : elements ≠ []) :
    isRooted (written rooted elements) = rooted := by
  obtain ⟨first, rest, rfl⟩ := List.exists_cons_of_ne_nil some
  have element := each first (by simp)
  cases rooted with
  | true => rfl
  | false =>
    obtain ⟨b, bytes, rfl⟩ := List.exists_cons_of_ne_nil element.ne_nil
    have other : b ≠ slash := fun same => element.no_slash (by simp [same])
    cases rest <;> simp [isRooted, written, Text.joined, List.intercalate, other]

theorem written_ne_nil (each : ∀ e ∈ elements, IsElement e) (some : elements ≠ []) :
    written rooted elements ≠ [] := by
  intro nothing
  have pieces : (written rooted elements).splitOnByte slash = _ := split_written each some
  rw [nothing] at pieces
  cases rooted with
  | false =>
    have member : [] ∈ elements := by
      rw [if_neg Bool.false_ne_true, List.nil_append] at pieces
      simp [← pieces, Text.splitOnByte]
    exact (each [] member).ne_nil rfl
  | true => simp [written] at nothing

def reducedElements (path : Text) : List Text := reduce (isRooted path) [] (path.splitOnByte slash)

theorem reduced_reducedElements (path : Text) : Reduced (isRooted path) (reducedElements path) :=
  reduced_reduce _ (Text.not_mem_of_splitOnByte slash path) .nil

theorem clean_eq_written {path : Text} (some : reducedElements path ≠ []) :
    clean path = written (isRooted path) (reducedElements path) := by
  show (if isRooted path then slash :: Text.joined [slash] (reducedElements path)
    else if (reducedElements path).isEmpty then Text.ofString "."
    else Text.joined [slash] (reducedElements path)) = _
  cases isRooted path <;> simp [written, some]

theorem reducedElements_written (reduced : Reduced rooted elements) (some : elements ≠ []) :
    reducedElements (written rooted elements) = elements := by
  rw [reducedElements, isRooted_written reduced.each some, split_written reduced.each some]
  cases rooted with
  | false => exact reduce_of_reduced elements reduced
  | true => exact (reduce_skip (.inl rfl)).trans (reduce_of_reduced elements reduced)

theorem isRooted_append {path : Text} (some : path ≠ []) (more : Text) :
    isRooted (path ++ more) = isRooted path := by
  obtain ⟨b, bytes, rfl⟩ := List.exists_cons_of_ne_nil some
  rfl

theorem reducedElements_under {path : Text} (some : path ≠ []) (element : IsElement e)
    (down : e ≠ upward) : reducedElements (path ++ slash :: e) = reducedElements path ++ [e] := by
  rw [reducedElements, isRooted_append some, Text.splitOnByte_append,
    Text.splitOnByte_plain element.no_slash, reduce_concat _ element down, reducedElements]

/-- An entry under a path is written from its elements. -/
theorem clean_under {path : Text} (some : path ≠ []) (element : IsElement e) (down : e ≠ upward) :
    clean (path ++ slash :: e) = written (isRooted path) (reducedElements path ++ [e]) := by
  have under := reducedElements_under some element down
  rw [clean_eq_written (by simp [under]), isRooted_append some, under]

theorem takeWhile_of_no_slash (free : slash ∉ e) :
    e.reverse.takeWhile (· != slash) = e.reverse := by
  refine List.takeWhile_eq_self_iff.mpr fun b member => ?_
  rw [bne_iff_ne]
  rintro rfl
  exact free (List.mem_reverse.mp member)

theorem lastElement_under (path : Text) (free : slash ∉ e) : lastElement (path ++ slash :: e) = e := by
  rw [lastElement, List.reverse_append, List.reverse_cons, List.append_assoc, List.takeWhile_append,
    takeWhile_of_no_slash free, if_pos rfl]
  simp

theorem take_under (path : Text) : (path ++ slash :: e).take
    ((path ++ slash :: e).length - e.length) = path ++ [slash] := by
  rw [show path ++ slash :: e = (path ++ [slash]) ++ e by simp, List.length_append, Nat.add_sub_cancel,
    List.take_left]

theorem parent_written (reduced : Reduced rooted elements) (some : elements ≠ [])
    (element : IsElement e) : parent (written rooted (elements ++ [e])) = written rooted elements := by
  have there : written rooted elements ≠ [] := written_ne_nil reduced.each some
  have inner := reducedElements_written reduced some
  have same : reducedElements (written rooted elements ++ [slash]) = elements := by
    rw [reducedElements] at inner
    rw [reducedElements, isRooted_append there, Text.splitOnByte_append, reduce_append, inner,
      Text.splitOnByte, reduce_skip (.inl rfl), reduce, List.reverse_reverse]
  rw [parent, written_concat some, lastElement_under _ element.no_slash, take_under,
    clean_eq_written (by simpa [same] using some), same, isRooted_append there,
    isRooted_written reduced.each some]

/-- A path that ends in an element has no slashes to trim. -/
theorem trim_append (path : Text) (element : IsElement e) :
    ((path ++ e).reverse.dropWhile (· == slash)).reverse = path ++ e := by
  rcases List.eq_nil_or_concat e with nothing | ⟨bytes, b, rfl⟩
  · exact absurd nothing element.ne_nil
  · have other : b ≠ slash := fun same => element.no_slash (by simp [same])
    simp [List.concat_eq_append, other]

theorem trim_written (each : ∀ e ∈ elements, IsElement e) (some : elements ≠ []) :
    ((written rooted elements).reverse.dropWhile (· == slash)).reverse = written rooted elements := by
  rcases List.eq_nil_or_concat elements with nothing | ⟨before, e, rfl⟩
  · exact absurd nothing some
  · rw [List.concat_eq_append] at each ⊢
    have element := each e (by simp)
    cases before with
    | nil =>
      rw [List.nil_append, written_singleton]
      exact trim_append _ element
    | cons first rest =>
      rw [written_concat (by simp), List.append_cons]
      exact trim_append _ element

theorem lead_written (some : elements ≠ []) (element : IsElement e) :
    lead (written rooted (elements ++ [e])) = written rooted elements := by
  have trimmed := trim_append (written rooted elements ++ [slash]) element
  rw [List.append_assoc, List.singleton_append] at trimmed
  rw [written_concat some, lead]
  simp only [trimmed, lastElement_under _ element.no_slash, take_under, List.dropLast_concat]

theorem lead_singleton (element : IsElement e) : lead (written rooted [e]) = [] := by
  have trimmed := trim_append (if rooted then [slash] else []) element
  rw [written_singleton, lead]
  simp only [trimmed]
  cases rooted with
  | true =>
    have last := lastElement_under [] element.no_slash
    rw [List.nil_append] at last
    simp [last]
  | false =>
    have last : lastElement e = e := by
      rw [lastElement, takeWhile_of_no_slash element.no_slash, List.reverse_reverse]
    simp [last]

end Path

end BorrowChecker
