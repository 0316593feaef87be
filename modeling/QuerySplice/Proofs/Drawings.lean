import Mathlib.Algebra.Ring.Nat
import Mathlib.Data.List.Forall2
import Mathlib.Data.List.Nodup
import QuerySplice.Proofs.Sessions

/-!
# Drawn tables

A table is drawn from its names and from the records of its rows, and its columns are as wide as
the longest text of both. A line of cells is as long as the border if it has one cell for each
column. The records of a table whose names repeat have fewer cells than there are columns, so such
a table has lines that are too short as soon as it has a row.
-/

namespace QuerySplice

open Text

/-! ## Distinct names -/

section DistinctNames

variable (names : List Text) (name : Text)

theorem eraseDups_append_singleton :
    (names ++ [name]).eraseDups =
      if name ∈ names then names.eraseDups else names.eraseDups ++ [name] := by
  have hsingleton : [name].eraseDups = [name] := by rw [List.eraseDups_cons]; rfl
  rw [List.eraseDups_append]
  by_cases h : name ∈ names
  · simp [List.removeAll, h]
  · simp [List.removeAll, h, hsingleton]

theorem nodup_eraseDups : names.eraseDups.Nodup := by
  induction names using List.reverseRecOn with
  | nil => exact List.nodup_nil
  | append_singleton names name ih =>
      rw [eraseDups_append_singleton]
      split
      · exact ih
      · next h =>
          refine List.nodup_append.mpr ⟨ih, List.nodup_singleton _, ?_⟩
          rintro n hn _ hname rfl
          exact h (List.mem_singleton.mp hname ▸ List.mem_eraseDups.mp hn)

theorem length_eraseDups_le : names.eraseDups.length ≤ names.length := by
  induction names using List.reverseRecOn with
  | nil => exact Nat.le_refl _
  | append_singleton names name ih =>
      rw [eraseDups_append_singleton]
      split
      · simpa using Nat.le_succ_of_le ih
      · simpa using ih

variable {names}

theorem eraseDups_of_nodup (h : names.Nodup) : names.eraseDups = names := by
  induction names using List.reverseRecOn with
  | nil => rfl
  | append_singleton names name ih =>
      obtain ⟨hnames, -, hname⟩ := List.nodup_append.mp h
      have hnew : name ∉ names := fun hmem => hname name hmem name (List.mem_singleton_self _) rfl
      rw [eraseDups_append_singleton, if_neg hnew, ih hnames]

/-- There are fewer distinct names than names if some name repeats. -/
theorem length_eraseDups_lt (h : ¬ names.Nodup) : names.eraseDups.length < names.length := by
  induction names using List.reverseRecOn with
  | nil => exact absurd List.nodup_nil h
  | append_singleton names name ih =>
      rw [eraseDups_append_singleton, List.length_append, List.length_singleton]
      split
      · exact Nat.lt_succ_of_le (length_eraseDups_le names)
      · next hnew =>
          have hnames : ¬ names.Nodup := by
            intro hnames
            refine h (List.nodup_append.mpr ⟨hnames, List.nodup_singleton _, ?_⟩)
            rintro n hn _ hname rfl
            exact hnew (List.mem_singleton.mp hname ▸ hn)
          simpa using ih hnames

end DistinctNames

/-! ## Records -/

namespace Value

variable {name : Text} {v : Value} {fields : List (Text × Value)}

theorem setField_map {names : List Text} (hnames : names.Nodup) (g : Text → Value) :
    setField name v (names.map fun n => (n, g n)) =
      if name ∈ names then names.map fun n => (n, if n = name then v else g n)
      else (names.map fun n => (n, g n)) ++ [(name, v)] := by
  induction names with
  | nil => rfl
  | cons n names ih =>
      obtain ⟨hn, hnames⟩ := List.nodup_cons.mp hnames
      by_cases hname : n = name
      · subst hname
        have hrest : (names.map fun m => (m, if m = n then v else g m)) =
            names.map fun m => (m, g m) := by
          refine List.map_congr_left fun m hm => ?_
          rw [if_neg]
          rintro rfl
          exact hn hm
        simp [setField, hrest]
      · simp only [List.map_cons, setField, if_neg hname, ih hnames, List.mem_cons, Ne.symm hname,
          false_or]
        split <;> rfl

theorem field?_append_singleton (fields : List (Text × Value)) (f : Text × Value) (n : Text) :
    field? (fields ++ [f]) n = if f.1 = n then some f.2 else field? fields n := by
  by_cases h : f.1 = n <;> simp [field?, h]

theorem setFields_append_singleton (fields old : List (Text × Value)) (f : Text × Value) :
    setFields (fields ++ [f]) old = setField f.1 f.2 (setFields fields old) := by
  simp [setFields]

/-- A record has each name once, in the order of the first places, with the last value. -/
theorem setFields_nil (fields : List (Text × Value)) :
    setFields fields [] = (fields.map (·.1)).eraseDups.map fun n =>
      (n, (field? fields n).getD .null) := by
  induction fields using List.reverseRecOn with
  | nil => rfl
  | append_singleton fields f ih =>
      rw [setFields_append_singleton, ih, setField_map (nodup_eraseDups _), List.map_append,
        List.map_singleton, eraseDups_append_singleton]
      simp only [List.mem_eraseDups, field?_append_singleton]
      split
      · refine List.map_congr_left fun n hn => ?_
        by_cases h : n = f.1
        · simp [h]
        · simp [h, Ne.symm h]
      · next hnew =>
          rw [List.map_append, List.map_singleton]
          congr 1
          · refine List.map_congr_left fun n hn => ?_
            rw [if_neg]
            rintro rfl
            exact hnew (List.mem_eraseDups.mp hn)
          · simp

theorem field?_of_mem (h : (fields.map (·.1)).Nodup) {f : Text × Value} (hf : f ∈ fields) :
    field? fields f.1 = some f.2 := by
  induction fields using List.reverseRecOn with
  | nil => cases hf
  | append_singleton fields g ih =>
      rw [List.map_append] at h
      obtain ⟨hfields, -, hg⟩ := List.nodup_append.mp h
      rw [field?_append_singleton]
      rcases List.mem_append.mp hf with hmem | hmem
      · have hne : g.1 ≠ f.1 := by
          intro heq
          exact hg f.1 (List.mem_map_of_mem hmem) g.1 (by simp) heq.symm
        rw [if_neg hne, ih hfields hmem]
      · rw [List.mem_singleton.mp hmem, if_pos rfl]

/-- Fields of distinct names are their own record. -/
theorem setFields_of_nodup (h : (fields.map (·.1)).Nodup) : setFields fields [] = fields := by
  rw [setFields_nil, eraseDups_of_nodup h, List.map_map]
  calc
    fields.map _ = fields.map id := List.map_congr_left fun f hf => by
      simp [field?_of_mem h hf]
    _ = fields := List.map_id fields

/-- Setting a field adds no more to a sum over the values than the value that is set. -/
theorem sum_setField_le (μ : Value → Nat) (name : Text) (v : Value)
    (fields : List (Text × Value)) :
    ((setField name v fields).map fun f => μ f.2).sum ≤ (fields.map fun f => μ f.2).sum + μ v := by
  induction fields with
  | nil => simp [setField]
  | cons f fields ih =>
      rw [setField]
      split
      · simp only [List.map_cons, List.sum_cons]
        omega
      · simp only [List.map_cons, List.sum_cons]
        omega

theorem sum_setFields_le (μ : Value → Nat) (fields : List (Text × Value)) :
    ((setFields fields []).map fun f => μ f.2).sum ≤ (fields.map fun f => μ f.2).sum := by
  induction fields using List.reverseRecOn with
  | nil => exact Nat.le_refl _
  | append_singleton fields f ih =>
      rw [setFields_append_singleton]
      have hstep := sum_setField_le μ f.1 f.2 (setFields fields [])
      simp only [List.map_append, List.map_singleton, List.sum_append, List.sum_singleton]
      omega

end Value

namespace Table

/-- Every row has one value for each column. -/
def IsRectangular (t : Table) : Prop := ∀ row ∈ t.rows, row.length = t.names.length

theorem isRectangular_ofColumns (columns : List Column) : (ofColumns columns).IsRectangular := by
  intro row hrow
  obtain ⟨i, -, rfl⟩ := List.mem_map.mp hrow
  simp [ofColumns]

/-! ## Widths -/

theorem length_widen (widths : List Nat) (row : List Text) :
    (widen widths row).length = widths.length := by
  fun_induction widen widths row with
  | case1 width widths text row ih => simp [ih]
  | case2 widths => rfl
  | case3 => rfl

/-- Widths hold a row if each of its texts is no longer than the width at its place. -/
def Holds (widths : List Nat) (row : List Text) : Prop :=
  ∀ p ∈ widths.zip row, p.2.length ≤ p.1

theorem holds_widen (widths : List Nat) (row : List Text) : Holds (widen widths row) row := by
  fun_induction widen widths row with
  | case1 width widths text row ih =>
      intro p hp
      rcases List.mem_cons.mp hp with rfl | hp
      · exact Nat.le_max_right _ _
      · exact ih p hp
  | case2 widths => intro p hp; simp at hp
  | case3 => intro p hp; simp at hp

theorem Holds.widen {widths : List Nat} {row : List Text} (h : Holds widths row)
    (other : List Text) : Holds (widen widths other) row := by
  fun_induction Table.widen widths other generalizing row with
  | case1 width widths text other ih =>
      cases row with
      | nil => intro p hp; simp at hp
      | cons first row =>
          obtain ⟨hfirst, hrow⟩ := List.forall_mem_cons.mp h
          exact List.forall_mem_cons.mpr ⟨hfirst.trans (Nat.le_max_left _ _), ih hrow⟩
  | case2 widths => exact h
  | case3 => exact h

theorem Holds.foldl_widen {widths : List Nat} {row : List Text} (h : Holds widths row)
    (rows : List (List Text)) : Holds (rows.foldl Table.widen widths) row := by
  induction rows generalizing widths with
  | nil => exact h
  | cons other rows ih => exact ih (h.widen other)

theorem holds_foldl_widen {rows : List (List Text)} {row : List Text} (h : row ∈ rows)
    (widths : List Nat) : Holds (rows.foldl widen widths) row := by
  induction rows generalizing widths with
  | nil => cases h
  | cons first rows ih =>
      rcases List.mem_cons.mp h with rfl | h
      · exact (holds_widen widths row).foldl_widen rows
      · exact ih h _

theorem length_foldl_widen (rows : List (List Text)) (widths : List Nat) :
    (rows.foldl widen widths).length = widths.length := by
  induction rows generalizing widths with
  | nil => rfl
  | cons row rows ih => rw [List.foldl_cons, ih, length_widen]

theorem length_widths (t : Table) : t.widths.length = t.names.length := by
  rw [widths, length_foldl_widen, List.length_map]

theorem holds_map_length (row : List Text) : Holds (row.map List.length) row := by
  induction row with
  | nil => intro p hp; simp at hp
  | cons text row ih => exact List.forall_mem_cons.mpr ⟨Nat.le_refl _, ih⟩

theorem holds_names (t : Table) : Holds t.widths t.names :=
  (holds_map_length t.names).foldl_widen t.cells

theorem holds_cells (t : Table) {row : List Text} (h : row ∈ t.cells) : Holds t.widths row :=
  holds_foldl_widen h _

/-! ## Lines -/

/-- Parts with a mark between them and at both ends. -/
def framed (mark : Char) (parts : List Text) : Text :=
  mark :: (List.intercalate [mark] parts ++ [mark])

theorem rowLine_eq_framed (widths : List Nat) (row : List Text) :
    rowLine widths row = framed '|' ((widths.zip row).map fun p => cell p.1 p.2) := rfl

theorem border_eq_framed (widths : List Nat) :
    border widths = framed '+' (widths.map fun width => List.replicate (width + 2) '-') := rfl

/-- What adds up over texts and is one on the mark, adds up over the parts and the marks. -/
theorem measure_framed {μ : Text → Nat} (happend : ∀ s t, μ (s ++ t) = μ s + μ t) {mark : Char}
    (hmark : μ [mark] = 1) (parts : List Text) :
    μ (framed mark parts) = (parts.map μ).sum + max parts.length 1 + 1 := by
  induction parts with
  | nil =>
      have : framed mark [] = [mark] ++ [mark] := rfl
      rw [this, happend, hmark]
      rfl
  | cons part parts ih =>
      cases parts with
      | nil =>
          have : framed mark [part] = [mark] ++ (part ++ [mark]) := by simp [framed]
          rw [this, happend, happend, hmark]
          simp
          omega
      | cons next parts =>
          have : framed mark (part :: next :: parts) =
              [mark] ++ (part ++ framed mark (next :: parts)) := by
            simp [framed]
          rw [this, happend, happend, hmark, ih]
          simp only [List.map_cons, List.sum_cons, List.length_cons]
          omega

theorem length_framed (mark : Char) (parts : List Text) :
    (framed mark parts).length = (parts.map List.length).sum + max parts.length 1 + 1 :=
  measure_framed (fun _ _ => List.length_append) rfl parts

theorem length_cell {width : Nat} {text : Text} (h : text.length ≤ width) :
    (cell width text).length = width + 2 := by
  simp only [cell, List.length_cons, List.length_append, List.length_replicate, List.length_nil]
  omega

/-- How long a line with a cell of each of these widths is. -/
def lineLength (widths : List Nat) : Nat :=
  (widths.map (· + 2)).sum + max widths.length 1 + 1

theorem length_border (widths : List Nat) : (border widths).length = lineLength widths := by
  simp [border_eq_framed, length_framed, lineLength, Function.comp_def]

/-- A line of cells is as long as the widths that it takes up. -/
theorem length_rowLine {widths : List Nat} {row : List Text} (h : Holds widths row)
    (hlength : row.length ≤ widths.length) :
    (rowLine widths row).length = lineLength (widths.take row.length) := by
  have hcells : ((widths.zip row).map fun p => cell p.1 p.2).map List.length =
      (widths.take row.length).map (· + 2) := by
    rw [List.map_map]
    calc
      (widths.zip row).map _ = (widths.zip row).map fun p => p.1 + 2 :=
        List.map_congr_left fun p hp => length_cell (h p hp)
      _ = ((widths.zip row).map Prod.fst).map (· + 2) := by rw [List.map_map]; rfl
      _ = (widths.take row.length).map (· + 2) := by
        rw [List.zip_eq_zip_take_min, List.map_fst_zip (by simp), min_eq_right hlength]
  rw [rowLine_eq_framed, length_framed, hcells, lineLength]
  simp [hlength]

/-- A line that takes up fewer columns than there are is shorter than the border. -/
theorem lineLength_take_lt {widths : List Nat} {n : Nat} (hpos : 0 < n) (h : n < widths.length) :
    lineLength (widths.take n) < lineLength widths := by
  have hsum : ((widths.take n).map (· + 2)).sum ≤ (widths.map (· + 2)).sum := by
    conv_rhs => rw [← List.take_append_drop n widths, List.map_append, List.sum_append]
    exact Nat.le_add_right _ _
  simp only [lineLength, List.length_take]
  omega

/-! ## Cells -/

/-- A text behind a blank, with `n` blanks to fill it up and one more behind them. -/
def filled (text : Text) (n : Nat) : Text := ' ' :: (text ++ List.replicate n ' ' ++ [' '])

theorem cell_eq_filled (width : Nat) (text : Text) :
    cell width text = filled text (width - text.length) := rfl

theorem count_bar_filled (text : Text) (n : Nat) :
    (filled text n).count '|' = text.count '|' := by
  simp [filled, List.count_replicate]

/-- The line has one cell for each of the texts, with bars between the cells and at both ends. -/
def IsRowOf (line : Text) (texts : List Text) : Prop :=
  ∃ fill : List Nat, fill.length = texts.length ∧
    line = framed '|' (List.zipWith filled texts fill)

theorem isRowOf_rowLine {widths : List Nat} {row : List Text} (h : row.length ≤ widths.length) :
    IsRowOf (rowLine widths row) row := by
  refine ⟨List.zipWith (fun width text => width - text.length) widths row, by simp [h], ?_⟩
  rw [rowLine_eq_framed]
  congr 1
  induction row generalizing widths with
  | nil => simp
  | cons text row ih =>
      cases widths with
      | nil => simp at h
      | cons width widths =>
          have hle : row.length ≤ widths.length := Nat.le_of_succ_le_succ h
          have hrest := ih hle
          rw [List.zip_cons_cons, List.map_cons, hrest, cell_eq_filled]
          rfl

/-- The bars of a line are those of its texts and one more than it has cells. -/
theorem IsRowOf.count_bar {line : Text} {texts : List Text} (h : IsRowOf line texts) :
    line.count '|' = (texts.map (List.count '|')).sum + max texts.length 1 + 1 := by
  obtain ⟨fill, hfill, rfl⟩ := h
  have hbars : (List.zipWith filled texts fill).map (List.count '|') =
      texts.map (List.count '|') := by
    induction texts generalizing fill with
    | nil => rfl
    | cons text texts ih =>
        cases fill with
        | nil => simp at hfill
        | cons n fill =>
            simp only [List.zipWith_cons_cons, List.map_cons, count_bar_filled,
              ih fill (Nat.succ.inj hfill)]
  rw [measure_framed (fun _ _ => List.count_append) (by decide), hbars, List.length_zipWith, hfill,
    Nat.min_self]

/-! ## Drawings -/

variable {t : Table}

/-- The lines of the rows. -/
def dataLines (t : Table) : List Text := t.cells.map (rowLine t.widths)

theorem drawing_eq (t : Table) :
    t.drawing =
      [border t.widths, rowLine t.widths t.names, border t.widths] ++ t.dataLines ++
        [border t.widths] := rfl

/-- What a row is drawn with: for each distinct name the last value under it. -/
def shownTexts (t : Table) (row : List Value) : List Text :=
  t.names.eraseDups.map fun n => cellText ((Value.field? (t.names.zip row) n).getD .null)

theorem map_fst_zip_names {row : List Value} (h : row.length = t.names.length) :
    (t.names.zip row).map (·.1) = t.names :=
  List.map_fst_zip (Nat.le_of_eq h.symm)

theorem record_texts {row : List Value} (h : row.length = t.names.length) :
    ((t.record row).map fun f => cellText f.2) = t.shownTexts row := by
  rw [record, Value.setFields_nil, map_fst_zip_names h, List.map_map]
  rfl

/-- Without repeated names a row is drawn with all its values. -/
theorem shownTexts_of_nodup (h : t.names.Nodup) {row : List Value}
    (hrow : row.length = t.names.length) : t.shownTexts row = row.map cellText := by
  have hnodup : ((t.names.zip row).map (·.1)).Nodup := by rwa [map_fst_zip_names hrow]
  rw [← record_texts hrow, record, Value.setFields_of_nodup hnodup]
  calc
    (t.names.zip row).map (fun f => cellText f.2) =
        ((t.names.zip row).map Prod.snd).map cellText := by rw [List.map_map]; rfl
    _ = row.map cellText := by rw [List.map_snd_zip (Nat.le_of_eq hrow)]

theorem sum_count_shownTexts_le {row : List Value} (h : row.length = t.names.length) (c : Char) :
    ((t.shownTexts row).map (List.count c)).sum ≤ ((row.map cellText).map (List.count c)).sum := by
  have hle := Value.sum_setFields_le (fun v => (cellText v).count c) (t.names.zip row)
  rw [← record_texts h, List.map_map, List.map_map]
  calc
    _ ≤ ((t.names.zip row).map fun f => (cellText f.2).count c).sum := hle
    _ = (((t.names.zip row).map Prod.snd).map fun v => (cellText v).count c).sum := by
      rw [List.map_map]; rfl
    _ = _ := by rw [List.map_snd_zip (Nat.le_of_eq h)]; rfl

theorem length_shownTexts (t : Table) (row : List Value) :
    (t.shownTexts row).length = t.names.eraseDups.length := List.length_map _

theorem length_shownTexts_le (t : Table) (row : List Value) :
    (t.shownTexts row).length ≤ t.widths.length := by
  rw [length_shownTexts, length_widths]
  exact length_eraseDups_le t.names

theorem IsRectangular.dataLines_eq (h : t.IsRectangular) :
    t.dataLines = t.rows.map fun row => rowLine t.widths (t.shownTexts row) := by
  rw [dataLines, cells, List.map_map]
  exact List.map_congr_left fun row hrow => congrArg (rowLine t.widths) (record_texts (h row hrow))

theorem isRowOf_shownTexts (t : Table) (row : List Value) :
    IsRowOf (rowLine t.widths (t.shownTexts row)) (t.shownTexts row) :=
  isRowOf_rowLine (length_shownTexts_le t row)

/-- The line of a row is as long as the widths that the distinct names take up. -/
theorem IsRectangular.length_dataLine (h : t.IsRectangular) {row : List Value}
    (hrow : row ∈ t.rows) :
    (rowLine t.widths (t.shownTexts row)).length =
      lineLength (t.widths.take t.names.eraseDups.length) := by
  have hcells : t.shownTexts row ∈ t.cells := by
    rw [← record_texts (h row hrow)]
    exact List.mem_map_of_mem hrow
  rw [length_rowLine (holds_cells t hcells) (length_shownTexts_le t row), length_shownTexts]

theorem length_nameLine (t : Table) :
    (rowLine t.widths t.names).length = lineLength t.widths := by
  rw [length_rowLine (holds_names t) (Nat.le_of_eq (length_widths t).symm), ← length_widths t,
    List.take_length]

theorem length_eraseDups_pos {names : List Text} (h : ¬ names.Nodup) :
    0 < names.eraseDups.length := by
  cases names with
  | nil => exact absurd List.nodup_nil h
  | cons n names => simp [List.eraseDups_cons]

/-- The line of a row has no cell for each column if a name repeats. -/
theorem not_isRowOf_of_not_nodup (h : ¬ t.names.Nodup) {row : List Value}
    (hrow : row.length = t.names.length) :
    ¬ IsRowOf (rowLine t.widths (t.shownTexts row)) (row.map cellText) := by
  intro hall
  have hbars := (isRowOf_shownTexts t row).count_bar.symm.trans hall.count_bar
  have hsum := sum_count_shownTexts_le hrow '|'
  have hpos := length_eraseDups_pos h
  have hlt := length_eraseDups_lt h
  rw [length_shownTexts, List.length_map, hrow] at hbars
  omega

theorem IsRectangular.isRowOf_iff (h : t.IsRectangular) :
    List.Forall₂ (fun line row => IsRowOf line (row.map cellText)) t.dataLines t.rows ↔
      t.rows = [] ∨ t.names.Nodup := by
  rw [h.dataLines_eq, List.forall₂_map_left_iff, List.forall₂_same]
  constructor
  · intro hall
    by_contra hnot
    obtain ⟨hrows, hnodup⟩ := not_or.mp hnot
    obtain ⟨row, hrow⟩ := List.exists_mem_of_ne_nil _ hrows
    exact not_isRowOf_of_not_nodup hnodup (h row hrow) (hall row hrow)
  · rintro (hrows | hnodup) row hrow
    · rw [hrows] at hrow
      cases hrow
    · rw [← shownTexts_of_nodup hnodup (h row hrow)]
      exact isRowOf_shownTexts t row

theorem IsRectangular.sameLength_iff (h : t.IsRectangular) :
    (∀ line ∈ t.drawing, line.length = (border t.widths).length) ↔
      t.rows = [] ∨ t.names.Nodup := by
  have hwidths := length_widths t
  constructor
  · intro hsame
    by_contra hnot
    obtain ⟨hrows, hnodup⟩ := not_or.mp hnot
    obtain ⟨row, hrow⟩ := List.exists_mem_of_ne_nil _ hrows
    have hmem : rowLine t.widths (t.shownTexts row) ∈ t.drawing := by
      rw [drawing_eq, h.dataLines_eq]
      exact List.mem_append_left _ (List.mem_append_right _ (List.mem_map_of_mem hrow))
    have hlength := hsame _ hmem
    have hlt := lineLength_take_lt (length_eraseDups_pos hnodup)
      (hwidths.symm ▸ length_eraseDups_lt hnodup)
    rw [h.length_dataLine hrow, length_border] at hlength
    omega
  · intro hor line hline
    rw [length_border]
    rw [drawing_eq, h.dataLines_eq] at hline
    simp only [List.cons_append, List.nil_append, List.mem_cons, List.mem_append, List.mem_map,
      List.not_mem_nil, or_false] at hline
    rcases hline with rfl | rfl | rfl | ⟨row, hrow, rfl⟩ | rfl
    · exact length_border _
    · exact length_nameLine t
    · exact length_border _
    · rcases hor with hrows | hnodup
      · rw [hrows] at hrow
        cases hrow
      · rw [h.length_dataLine hrow, eraseDups_of_nodup hnodup, ← hwidths, List.take_length]
    · exact length_border _

/-! ## Printed tables -/

theorem lines_eq_ok_iff {elapsed : Number.Binary64} {lines : List Text} :
    t.lines elapsed = .ok lines ↔
      t.fault = none ∧ elapsed.isFinite = true ∧ lines = t.drawing ++ [t.summary elapsed] := by
  unfold Table.lines readable
  cases hfault : t.fault with
  | some fault => simp [bind, Except.bind]
  | none =>
      by_cases hfinite : elapsed.isFinite = true
      · simp [hfinite, bind, Except.bind, pure, Except.pure, eq_comm]
      · simp [hfinite, bind, Except.bind, throw, throwThe, MonadExceptOf.throw]

end Table

namespace Shell

open QuerySplice.Action

theorem perform_forM_print (lines : List Text) (w : World) :
    (lines.forM print).perform w = (.ok (), { w with trace := w.trace ++ lines.map .print }) := by
  rw [List.forM_eq_forM]
  induction lines generalizing w with
  | nil => simp
  | cons line lines ih =>
      rw [List.forM_cons, perform_bind, print, perform_emit]
      simp only [ih]
      simp

/-- A table is printed as a whole or not at all. -/
theorem perform_display (t : Table) (w : World) :
    (display t).perform w =
      match t.lines w.elapsed with
      | .ok lines => (.ok (), { w with trace := w.trace ++ lines.map .print })
      | .error fault => (.error fault, w) := by
  rw [display, perform_bind, perform_get]
  simp only [perform_bind, perform_liftM]
  cases t.lines w.elapsed with
  | error fault => rfl
  | ok lines => exact perform_forM_print lines w

end Shell

namespace Table

/-- A table whose values can be read is printed as a whole, drawing and summary, and any other not at
all. The lines in front of the summary are of one length exactly if the table has no rows or no
repeated names, and then and only then each row has a cell for each column, with the text of its
value there. In any case the line of a row has a cell for each distinct name, with the last value
under that name. -/
theorem display_rectangular_iff {t : Table} (h : t.IsRectangular) :
    (∀ w w', (Shell.display t).perform w = (.ok (), w') ↔
      t.fault = none ∧ w.elapsed.isFinite = true ∧
        w' = { w with trace := w.trace ++ (t.drawing ++ [t.summary w.elapsed]).map .print }) ∧
    (∀ w fault w', (Shell.display t).perform w = (.error fault, w') → w' = w) ∧
    t.drawing = [border t.widths, rowLine t.widths t.names, border t.widths] ++ t.dataLines ++
      [border t.widths] ∧
    IsRowOf (rowLine t.widths t.names) t.names ∧
    List.Forall₂ (fun line row => IsRowOf line (t.shownTexts row)) t.dataLines t.rows ∧
    (List.Forall₂ (fun line row => IsRowOf line (row.map cellText)) t.dataLines t.rows ↔
      t.rows = [] ∨ t.names.Nodup) ∧
    ((∀ line ∈ t.drawing, line.length = (border t.widths).length) ↔
      t.rows = [] ∨ t.names.Nodup) := by
  refine ⟨?_, ?_, drawing_eq t, ?_, ?_, h.isRowOf_iff, h.sameLength_iff⟩
  · intro w w'
    rw [Shell.perform_display]
    cases hlines : t.lines w.elapsed with
    | ok lines =>
        obtain ⟨hreadable, hfinite, rfl⟩ := lines_eq_ok_iff.mp hlines
        simp [hreadable, hfinite, eq_comm]
    | error fault =>
        refine iff_of_false nofun ?_
        rintro ⟨hreadable, hfinite, -⟩
        have hok := lines_eq_ok_iff.mpr ⟨hreadable, hfinite, rfl⟩
        rw [hlines] at hok
        cases hok
  · intro w fault w' hfault
    rw [Shell.perform_display] at hfault
    cases hlines : t.lines w.elapsed with
    | ok lines =>
        rw [hlines] at hfault
        cases hfault
    | error fault =>
        rw [hlines] at hfault
        cases hfault
        rfl
  · exact isRowOf_rowLine (Nat.le_of_eq (length_widths t).symm)
  · rw [h.dataLines_eq, List.forall₂_map_left_iff, List.forall₂_same]
    exact fun row _ => isRowOf_shownTexts t row

/-- Two columns of one name. -/
def twoOfOneName : Table :=
  ⟨["a".toList, "a".toList], [[.text "1".toList, .text "2".toList]], none⟩

theorem isRectangular_twoOfOneName : twoOfOneName.IsRectangular := by
  intro row hrow
  rw [List.mem_singleton.mp hrow]
  rfl

/-- The row under a repeated name is drawn in a line that is too short. -/
theorem display_rectangular_iff_twoOfOneName :
    twoOfOneName.IsRectangular ∧
      ¬ ∀ line ∈ twoOfOneName.drawing, line.length = (border twoOfOneName.widths).length := by
  obtain ⟨-, -, -, -, -, -, hlength⟩ := display_rectangular_iff isRectangular_twoOfOneName
  refine ⟨isRectangular_twoOfOneName, ?_⟩
  rw [hlength]
  decide

/-- Not every table is drawn with lines of one length and a cell for each value. -/
theorem not_rectangular_twoOfOneName :
    ¬ ∀ t : Table, t.IsRectangular →
      (∀ line ∈ t.drawing, line.length = (border t.widths).length) ∧
        List.Forall₂ (fun line row => IsRowOf line (row.map cellText)) t.dataLines t.rows := by
  intro h
  exact absurd (h twoOfOneName isRectangular_twoOfOneName).1 (by decide)

end Table

end QuerySplice
