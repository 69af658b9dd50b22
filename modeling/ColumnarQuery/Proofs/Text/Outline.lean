import Mathlib.Data.List.Basic
import ColumnarQuery.Text.Outline

/-!
# Outlines read back

`Text.outline` puts each item one level below the one before. An outline has a line for each item, if no item has a newline,
and the items and their levels can be read off it (`Text.encodes_outline`).
-/

namespace ColumnarQuery.Text

/-! ## Texts without newlines -/

def OneLine (s : String) : Prop :=
  '\n' ∉ s.toList

instance (s : String) : Decidable (OneLine s) :=
  inferInstanceAs (Decidable ('\n' ∉ s.toList))

theorem oneLine_append {s t : String} : OneLine (s ++ t) ↔ OneLine s ∧ OneLine t := by
  simp [OneLine]

theorem oneLine_commaList {items : List String} (h : ∀ s ∈ items, OneLine s) : OneLine (commaList items) := by
  induction items with
  | nil => decide
  | cons s items ih =>
    rw [List.forall_mem_cons] at h
    cases items with
    | nil => simpa [commaList] using h.1
    | cons t items =>
      have hsplit : commaList (s :: t :: items) = s ++ ", " ++ commaList (t :: items) := by
        simp [commaList]
      rw [hsplit, oneLine_append, oneLine_append]
      exact ⟨⟨h.1, by decide⟩, ih h.2⟩

theorem oneLine_columnNames {names : List String} (h : ∀ s ∈ names, OneLine s) : OneLine (columnNames names) := by
  unfold columnNames
  split
  · decide
  · rw [oneLine_append, oneLine_append]
    exact ⟨⟨by decide, oneLine_commaList h⟩, by decide⟩

/-! ## Lines -/

def tabs (n : Nat) : String :=
  String.ofList (List.replicate n '\t')

theorem tabs_add (m n : Nat) : tabs (m + n) = tabs m ++ tabs n := by
  rw [tabs, List.replicate_add, String.ofList_append, tabs, tabs]

theorem oneLine_tabs (n : Nat) : OneLine (tabs n) := by
  simp [OneLine, tabs]

/-- The lines of a text without the newlines that end them. What follows the last newline is a line if it is anything. -/
def lines (s : String) : List String :=
  let pieces := s.toList.splitOn '\n'
  (if pieces.getLast? = some [] then pieces.dropLast else pieces).map String.ofList

theorem splitOn_flatMap_toList {ls : List String} (h : ∀ l ∈ ls, OneLine l) :
    (ls.flatMap fun l => (l ++ "\n").toList).splitOn '\n' = ls.map String.toList ++ [[]] := by
  induction ls with
  | nil => rfl
  | cons l ls ih =>
    rw [List.forall_mem_cons] at h
    have hl : ∀ c ∈ l.toList, (c == '\n') = false := by
      intro c hc
      rw [beq_eq_false_iff_ne]
      rintro rfl
      exact h.1 hc
    have hcons : ((l :: ls).flatMap fun l => (l ++ "\n").toList) =
        l.toList ++ '\n' :: ls.flatMap fun l => (l ++ "\n").toList := by
      simp
    rw [hcons, List.splitOn_eq_splitOnP, List.splitOnP_append_cons_of_forall_mem hl '\n' rfl,
      ← List.splitOn_eq_splitOnP, ih h.2]
    rfl

theorem lines_join {ls : List String} (h : ∀ l ∈ ls, OneLine l) : lines (String.join (ls.map (· ++ "\n"))) = ls := by
  unfold lines
  rw [String.toList_join, List.flatMap_map, splitOn_flatMap_toList h]
  simp

def indentation (line : String) : Nat :=
  (line.toList.takeWhile (· = '\t')).length

def unindented (line : String) : String :=
  String.ofList (line.toList.dropWhile (· = '\t'))

section Item
variable {text : String} (h : text.toList.head? ≠ some '\t') (n : Nat)
include h

theorem takeWhile_tabs_append :
    (tabs n ++ text).toList.takeWhile (· = '\t') = List.replicate n '\t' := by
  rw [String.toList_append, tabs, String.toList_ofList, List.takeWhile_append_of_pos (by simp)]
  cases hc : text.toList with
  | nil => simp
  | cons c cs =>
    rw [hc, List.head?_cons, ne_eq, Option.some.injEq] at h
    rw [List.takeWhile_cons_of_neg (by simpa using h), List.append_nil]

theorem indentation_tabs_append : indentation (tabs n ++ text) = n := by
  rw [indentation, takeWhile_tabs_append h, List.length_replicate]

theorem unindented_tabs_append : unindented (tabs n ++ text) = text := by
  have hline := List.takeWhile_append_dropWhile (p := fun c => decide (c = '\t')) (l := (tabs n ++ text).toList)
  rw [takeWhile_tabs_append h, String.toList_append, tabs, String.toList_ofList] at hline
  have hrest := List.append_cancel_left hline
  rw [unindented, String.toList_append, tabs, String.toList_ofList, hrest, String.ofList_toList]

end Item

def indent (n : Nat) (s : String) : String :=
  String.join ((lines s).map fun line => tabs n ++ line ++ "\n")

/-! ## Outlines -/

/-- The outline of items each of which stands one level below the one before. -/
def outline (level : Nat) (items : List String) : String :=
  String.join (items.mapIdx fun i item => tabs (level + i) ++ item ++ "\n")

theorem outline_nil (level : Nat) : outline level [] = "" := rfl

theorem outline_cons (level : Nat) (item : String) (items : List String) :
    outline level (item :: items) = outlineLine level item ++ outline (level + 1) items := by
  rw [outline, List.mapIdx_cons, String.join_cons, outline]
  simp only [Nat.add_assoc, Nat.add_comm 1]
  rfl

theorem map_mapIdx {α β γ : Type} (g : β → γ) (f : Nat → α → β) (xs : List α) :
    (xs.mapIdx f).map g = xs.mapIdx fun i x => g (f i x) := by
  refine (List.mapIdx_eq_iff.2 fun i => ?_).symm
  rw [List.getElem?_map, List.getElem?_mapIdx, Option.map_map]
  rfl

section Reading
variable {items : List String} (h : ∀ item ∈ items, OneLine item) (level : Nat)
include h

theorem lines_outline : lines (outline level items) = items.mapIdx fun i item => tabs (level + i) ++ item := by
  have hjoin : outline level items = String.join ((items.mapIdx fun i item => tabs (level + i) ++ item).map (· ++ "\n")) := by
    rw [outline, map_mapIdx]
  rw [hjoin]
  refine lines_join fun line hline => ?_
  obtain ⟨i, hi, rfl⟩ := List.mem_mapIdx.1 hline
  exact oneLine_append.2 ⟨oneLine_tabs _, h _ (List.getElem_mem hi)⟩

theorem indent_outline (n : Nat) : indent n (outline level items) = outline (level + n) items := by
  rw [indent, lines_outline h, map_mapIdx, outline]
  congr 1
  refine List.mapIdx_eq_mapIdx_iff.2 fun i hi => ?_
  rw [← String.append_assoc, ← tabs_add, show n + (level + i) = level + n + i by omega]

end Reading

/-- A text is made of a line for each item, which stands behind as many tabs as its level says, one more on each line. -/
structure Encodes (level : Nat) (items : List String) (s : String) : Prop where
  length_lines : (lines s).length = items.length
  line : ∀ (i : Nat) (item : String), items[i]? = some item →
    ∃ line, (lines s)[i]? = some line ∧ indentation line = level + i ∧ unindented line = item

theorem encodes_outline {items : List String} (h : ∀ item ∈ items, OneLine item ∧ item.toList.head? ≠ some '\t')
    (level : Nat) : Encodes level items (outline level items) := by
  have hlines := lines_outline (fun item hitem => (h item hitem).1) level
  refine ⟨by rw [hlines, List.length_mapIdx], fun i item hitem => ⟨tabs (level + i) ++ item, ?_, ?_⟩⟩
  · rw [hlines, List.getElem?_mapIdx, hitem, Option.map_some]
  · have htab := (h item (List.mem_of_getElem? hitem)).2
    exact ⟨indentation_tabs_append htab _, unindented_tabs_append htab _⟩

theorem Encodes.indentations {level : Nat} {items : List String} {s : String} (h : Encodes level items s) :
    (lines s).map indentation = (List.range items.length).map (level + ·) := by
  refine List.ext_getElem? fun i => ?_
  rw [List.getElem?_map, List.getElem?_map]
  by_cases hi : i < items.length
  · obtain ⟨line, hline, hlevel, -⟩ := h.line i items[i] (List.getElem?_eq_getElem hi)
    rw [hline, List.getElem?_range hi, Option.map_some, Option.map_some, hlevel]
  · rw [List.getElem?_eq_none (by rw [h.length_lines]; omega), List.getElem?_eq_none (by rw [List.length_range]; omega)]
    rfl

/-- What a tree is written as from each level on: the outline of its items. If no text that is written has a newline, the
items and their levels can be read off it, and to write it from a lower level on is to put tabs before each line. -/
structure OutlinedAs (texts items : List String) (format : Nat → String) : Prop where
  format_eq : ∀ level, format level = outline level items
  encodes : (∀ t ∈ texts, OneLine t) → ∀ level, Encodes level items (format level)
  format_add : (∀ t ∈ texts, OneLine t) → ∀ level n, format (level + n) = indent n (format level)

theorem outlinedAs {texts items : List String} {format : Nat → String} (h : ∀ level, format level = outline level items)
    (hline : (∀ t ∈ texts, OneLine t) → ∀ item ∈ items, OneLine item)
    (htab : ∀ item ∈ items, item.toList.head? ≠ some '\t') : OutlinedAs texts items format where
  format_eq := h
  encodes := by
    intro htexts level
    rw [h]
    exact encodes_outline (fun item hitem => ⟨hline htexts item hitem, htab item hitem⟩) level
  format_add := by
    intro htexts level n
    rw [h, h, indent_outline (hline htexts)]

end ColumnarQuery.Text
