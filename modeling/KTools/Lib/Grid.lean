import Mathlib.Data.List.Basic
import Mathlib.Tactic.Common

/-!
# Rows and cells of a separated text

A text over any alphabet, cut into rows at one separator and each row into cells at another
(`cells`). A scanner that walks the text once with a row number, a column number and the cell read
so far (`scan`) finds exactly the cells of the text, numbered in order (`scan_eq_number`), and
joining rows of separator-free cells and cutting the text again gives the rows back (`cells_join`).
-/

namespace KTools.Lib.Grid

variable {α : Type*}

/-- A cell of a text, with its row and its column. -/
structure Cell (α : Type*) where
  row : Nat
  col : Nat
  text : List α

section number

/-- The cells of one row, numbered from column `c`. -/
def numberRow (r : Nat) : Nat → List (List α) → List (Cell α)
  | _, [] => []
  | c, text :: rest => ⟨r, c, text⟩ :: numberRow r (c + 1) rest

/-- The cells of all rows, numbered from row `r`. -/
def number : Nat → List (List (List α)) → List (Cell α)
  | _, [] => []
  | r, texts :: rest => numberRow r 0 texts ++ number (r + 1) rest

theorem mem_numberRow {r c : Nat} {texts : List (List α)} {x : Cell α} :
    x ∈ numberRow r c texts ↔ x.row = r ∧ c ≤ x.col ∧ texts[x.col - c]? = some x.text := by
  induction texts generalizing c with
  | nil => simp [numberRow]
  | cons text rest ih =>
    simp only [numberRow, List.mem_cons, ih]
    constructor
    · rintro (rfl | ⟨hrow, hcol, htext⟩)
      · simp
      · refine ⟨hrow, by omega, ?_⟩
        rw [show x.col - c = x.col - (c + 1) + 1 by omega, List.getElem?_cons_succ]
        exact htext
    · rintro ⟨hrow, hcol, htext⟩
      rcases Nat.eq_or_lt_of_le hcol with heq | hlt
      · left
        obtain ⟨row, col, text'⟩ := x
        simp only at hrow heq htext
        subst hrow heq
        simp at htext
        rw [htext]
      · right
        refine ⟨hrow, hlt, ?_⟩
        rw [show x.col - c = x.col - (c + 1) + 1 by omega, List.getElem?_cons_succ] at htext
        exact htext

theorem mem_number {r : Nat} {g : List (List (List α))} {x : Cell α} :
    x ∈ number r g ↔ r ≤ x.row ∧ ∃ texts, g[x.row - r]? = some texts ∧ texts[x.col]? = some x.text := by
  induction g generalizing r with
  | nil => simp [number]
  | cons texts rest ih =>
    simp only [number, List.mem_append, mem_numberRow, ih]
    constructor
    · rintro (⟨hrow, _, htext⟩ | ⟨hrow, texts', hline, htext⟩)
      · exact ⟨Nat.le_of_eq hrow.symm, texts, by simp [hrow], by simpa using htext⟩
      · refine ⟨by omega, texts', ?_, htext⟩
        rw [show x.row - r = x.row - (r + 1) + 1 by omega, List.getElem?_cons_succ]
        exact hline
    · rintro ⟨hrow, texts', hline, htext⟩
      rcases Nat.eq_or_lt_of_le hrow with heq | hlt
      · left
        rw [← heq] at hline
        simp at hline
        subst hline
        exact ⟨heq.symm, Nat.zero_le _, by simpa using htext⟩
      · right
        rw [show x.row - r = x.row - (r + 1) + 1 by omega, List.getElem?_cons_succ] at hline
        exact ⟨hlt, texts', hline, htext⟩

/-- Two cells at different places. -/
def Apart (x y : Cell α) : Prop := x.row ≠ y.row ∨ x.col ≠ y.col

theorem numberRow_pairwise (r c : Nat) (texts : List (List α)) :
    (numberRow r c texts).Pairwise Apart := by
  induction texts generalizing c with
  | nil => exact List.Pairwise.nil
  | cons text rest ih =>
    refine List.Pairwise.cons (fun y hy => Or.inr ?_) (ih (c + 1))
    have := (mem_numberRow.1 hy).2.1
    simp only
    omega

theorem number_pairwise (r : Nat) (g : List (List (List α))) : (number r g).Pairwise Apart := by
  induction g generalizing r with
  | nil => exact List.Pairwise.nil
  | cons texts rest ih =>
    refine List.pairwise_append.2 ⟨numberRow_pairwise r 0 texts, ih (r + 1), fun x hx y hy => Or.inl ?_⟩
    have hx' := (mem_numberRow.1 hx).1
    have hy' := (mem_number.1 hy).1
    omega

end number

section scan
variable [DecidableEq α]

/-- The rows of a text, each cut into its cells. -/
def cells (row col : α) (t : List α) : List (List (List α)) :=
  (t.splitOn row).map (·.splitOn col)

/-- One walk over a text: a cell ends at a separator and at the end of the text. -/
def scan (row col : α) : Nat → Nat → List α → List α → List (Cell α)
  | r, c, cur, [] => [⟨r, c, cur⟩]
  | r, c, cur, x :: rest =>
    if x = row then ⟨r, c, cur⟩ :: scan row col (r + 1) 0 [] rest
    else if x = col then ⟨r, c, cur⟩ :: scan row col r (c + 1) [] rest
    else scan row col r c (cur ++ [x]) rest

theorem cells_eq_cons (row col : α) (t : List α) :
    ∃ text texts rest, cells row col t = (text :: texts) :: rest := by
  unfold cells
  cases hrows : t.splitOn row with
  | nil => exact absurd hrows (List.splitOn_ne_nil row t)
  | cons first rest =>
    cases hcells : first.splitOn col with
    | nil => exact absurd hcells (List.splitOn_ne_nil col first)
    | cons text texts => exact ⟨text, texts, rest.map (·.splitOn col), by simp [hcells]⟩

theorem cells_cons_row (row col : α) (t : List α) :
    cells row col (row :: t) = [[]] :: cells row col t := by
  simp [cells, List.splitOn_cons_eq_if_modifyHead]

theorem cells_cons_col {row col : α} (hne : col ≠ row) (t : List α) {texts rest}
    (h : cells row col t = texts :: rest) :
    cells row col (col :: t) = ([] :: texts) :: rest := by
  unfold cells at h ⊢
  rw [List.splitOn_cons_eq_if_modifyHead, if_neg (by simpa using hne)]
  obtain ⟨first, others, hrows⟩ := List.exists_cons_of_ne_nil (List.splitOn_ne_nil row t)
  rw [hrows] at h ⊢
  simp only [List.map_cons, List.cons.injEq, List.modifyHead_cons] at h ⊢
  exact ⟨by simp [List.splitOn_cons_eq_if_modifyHead, h.1], h.2⟩

theorem cells_cons_of_ne {row col x : α} (hrow : x ≠ row) (hcol : x ≠ col) (t : List α)
    {text texts rest} (h : cells row col t = (text :: texts) :: rest) :
    cells row col (x :: t) = ((x :: text) :: texts) :: rest := by
  unfold cells at h ⊢
  rw [List.splitOn_cons_eq_if_modifyHead, if_neg (by simpa using hrow)]
  obtain ⟨first, others, hrows⟩ := List.exists_cons_of_ne_nil (List.splitOn_ne_nil row t)
  rw [hrows] at h ⊢
  simp only [List.map_cons, List.cons.injEq, List.modifyHead_cons] at h ⊢
  refine ⟨?_, h.2⟩
  rw [List.splitOn_cons_eq_if_modifyHead, if_neg (by simpa using hcol), h.1]
  rfl

/-- The scanner finds the cells of the rest of the text, the first one after what it has read. -/
theorem scan_eq {row col : α} (hne : col ≠ row) (t : List α) :
    ∀ (r c : Nat) (cur text : List α) texts rest, cells row col t = (text :: texts) :: rest →
      scan row col r c cur t = numberRow r c ((cur ++ text) :: texts) ++ number (r + 1) rest := by
  induction t with
  | nil =>
    intro r c cur text texts rest h
    simp [cells] at h
    obtain ⟨⟨rfl, rfl⟩, rfl⟩ := h
    simp [scan, numberRow, number]
  | cons x t ih =>
    intro r c cur text texts rest h
    obtain ⟨text', texts', rest', ht⟩ := cells_eq_cons row col t
    by_cases hrow : x = row
    · rw [hrow, cells_cons_row, ht] at h
      simp only [List.cons.injEq] at h
      obtain ⟨⟨rfl, rfl⟩, rfl⟩ := h
      rw [scan, if_pos hrow, ih (r + 1) 0 [] _ _ _ ht]
      simp [numberRow, number]
    · by_cases hcol : x = col
      · rw [hcol, cells_cons_col hne t ht] at h
        simp only [List.cons.injEq] at h
        obtain ⟨⟨rfl, rfl⟩, rfl⟩ := h
        rw [scan, if_neg hrow, if_pos hcol, ih r (c + 1) [] _ _ _ ht]
        simp [numberRow]
      · rw [cells_cons_of_ne hrow hcol t ht] at h
        simp only [List.cons.injEq] at h
        obtain ⟨⟨rfl, rfl⟩, rfl⟩ := h
        rw [scan, if_neg hrow, if_neg hcol, ih r c (cur ++ [x]) _ _ _ ht]
        simp

/-- **One walk over a text finds its cells**, numbered in order. -/
theorem scan_eq_number {row col : α} (hne : col ≠ row) (t : List α) :
    scan row col 0 0 [] t = number 0 (cells row col t) := by
  obtain ⟨text, texts, rest, h⟩ := cells_eq_cons row col t
  rw [scan_eq hne t 0 0 [] _ _ _ h, h]
  simp [number]

/-- The text of a table: its rows joined by `row`, the cells of a row by `col`. -/
def join (row col : α) (g : List (List (List α))) : List α :=
  [row].intercalate (g.map fun texts => [col].intercalate texts)

omit [DecidableEq α] in
theorem mem_intercalate_singleton {x sep : α} {l : List (List α)} (h : x ∈ [sep].intercalate l) :
    x = sep ∨ ∃ a ∈ l, x ∈ a := by
  induction l with
  | nil => simp at h
  | cons a l ih =>
    cases l with
    | nil => exact Or.inr ⟨a, by simp, by simpa using h⟩
    | cons b l =>
      rw [List.intercalate_cons_cons] at h
      simp only [List.mem_append, List.mem_singleton] at h
      rcases h with (h | h) | h
      · exact Or.inr ⟨a, by simp, h⟩
      · exact Or.inl h
      · rcases ih h with h | ⟨c, hc, hx⟩
        · exact Or.inl h
        · exact Or.inr ⟨c, by simp [hc], hx⟩

/-- **Cutting a joined table gives its cells back**, when no cell holds a separator. -/
theorem cells_join {row col : α} (hne : col ≠ row) {g : List (List (List α))} (hg : g ≠ [])
    (hline : ∀ texts ∈ g, texts ≠ []) (hfree : ∀ texts ∈ g, ∀ text ∈ texts, row ∉ text ∧ col ∉ text) :
    cells row col (join row col g) = g := by
  unfold cells join
  rw [List.splitOn_intercalate row _ (by simpa using hg)]
  · rw [List.map_map]
    conv_rhs => rw [← List.map_id g]
    refine List.map_congr_left fun texts hl => ?_
    exact List.splitOn_intercalate col (fun text ht => (hfree texts hl text ht).2) (hline texts hl)
  · intro l hl hmem
    obtain ⟨texts, hl', rfl⟩ := List.mem_map.1 hl
    rcases mem_intercalate_singleton hmem with h | ⟨text, ht, hx⟩
    · exact hne h.symm
    · exact (hfree texts hl' text ht).1 hx

omit [DecidableEq α] in
theorem intercalate_append_last (sep : List α) (l : List (List α)) (a b : List α) :
    sep.intercalate (l ++ [a ++ b]) = sep.intercalate (l ++ [a]) ++ b := by
  induction l with
  | nil => simp
  | cons c l ih =>
    rw [List.cons_append, List.intercalate_cons_of_ne_nil (by simp), ih, List.cons_append,
      List.intercalate_cons_of_ne_nil (by simp)]
    simp

omit [DecidableEq α] in
/-- More text in the last cell is more text at the end of the joined table. -/
theorem join_append_last (row col : α) (g : List (List (List α))) (texts : List (List α))
    (a b : List α) :
    join row col (g ++ [texts ++ [a ++ b]]) = join row col (g ++ [texts ++ [a]]) ++ b := by
  simp only [join, List.map_append, List.map_singleton]
  rw [intercalate_append_last, intercalate_append_last]

omit [DecidableEq α] in
/-- Ending every row with the separator is joining the rows and ending the text with it. -/
theorem flatMap_row_eq_join (row col : α) {g : List (List (List α))} (hg : g ≠ []) :
    (g.flatMap fun texts => [col].intercalate texts ++ [row]) = join row col g ++ [row] := by
  induction g with
  | nil => exact absurd rfl hg
  | cons texts rest ih =>
    cases rest with
    | nil => simp [join]
    | cons texts' rest =>
      rw [List.flatMap_cons, ih (by simp)]
      simp [join, List.intercalate_cons_cons]

end scan

end KTools.Lib.Grid
