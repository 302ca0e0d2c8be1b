/-
**The columns of the table of presets.**

The table has one row for each preset below a row of titles, and its columns stand below each other
although nothing is ever cut.  The first column is as wide as the bytes of the longest name.  A name
has at most as many characters as bytes, so there is always room for it, and it is filled up to the
same number of characters in every row.  Only a count may need more room than its column has: then the
rest of its row moves to the right by just that much.

Main definitions:

* `Roster.overhang` — by how much a count is longer than its column;
* `Roster.Aligned` — where the parts of a row stand.

Main results:

* `Roster.aligned_tableRow` — the parts of a row stand in their columns;
* `Roster.overhang_toString_eq_zero_iff` — the counts that have room in their column;
* `Roster.PresetSet.nameWidth_spec` — the width of the first column;
* `Roster.table_layout` — **the layout of the table**.
-/

import Roster.Proofs.Command.Refusal

set_option relaxedAutoImplicit false
set_option autoImplicit false

namespace Roster

/-! ### Blanks -/

section

variable {width : Nat} {s : String}

@[simp] theorem toList_fillRight :
    (fillRight width s).toList = s.toList ++ List.replicate (width - s.length) ' ' := by
  simp [fillRight]

@[simp] theorem toList_fillLeft :
    (fillLeft width s).toList = List.replicate (width - s.length) ' ' ++ s.toList := by
  simp [fillLeft]

theorem length_fillRight (h : s.length ≤ width) : (fillRight width s).toList.length = width := by
  rw [toList_fillRight, List.length_append, List.length_replicate, String.length_toList]
  omega

theorem length_fillLeft : (fillLeft width s).toList.length = width + (s.length - width) := by
  rw [toList_fillLeft, List.length_append, List.length_replicate, String.length_toList]
  omega

/-- A text has at most as many characters as bytes. -/
theorem length_le_utf8ByteSize (s : String) : s.length ≤ s.utf8ByteSize := by
  obtain ⟨cs, rfl⟩ : ∃ cs, s = String.ofList cs := ⟨s.toList, String.ofList_toList.symm⟩
  induction cs with
  | nil => simp
  | cons c cs ih =>
      have hpos := c.utf8Size_pos
      rw [String.ofList_cons, String.length_append, String.utf8ByteSize_append,
        String.length_singleton, String.utf8ByteSize_singleton]
      omega

end

/-! ### Rows -/

/-- By how much a count is longer than its column, which is ten characters wide. -/
def overhang (count : String) : Nat := count.length - 10

/-- Where the parts of a row stand, the first column being of some width.  Whatever is longer than its
column moves what follows it to the right. -/
structure Aligned (width : Nat) (name count enabled file row : String) : Prop where
  /-- The first column holds the name and then blanks only. -/
  name_first : row.toList.take width =
    name.toList ++ List.replicate (width - name.length) ' '
  /-- Twelve characters further the count ends, with blanks only before it. -/
  count_ends : (row.toList.drop width).take (12 + overhang count) =
    List.replicate (12 + overhang count - count.length) ' ' ++ count.toList
  /-- The next twelve characters are for whether the preset is enabled. -/
  enabled_next : (row.toList.drop (width + 12 + overhang count)).take 12 =
    [' ', ' '] ++ enabled.toList ++ List.replicate (10 - enabled.length) ' '
  /-- The rest of the row is the file. -/
  file_last : row.toList.drop (width + 24 + overhang count) = file.toList ++ ['\n']
  length_eq : row.length = width + 24 + overhang count + file.length + 1

variable {width : Nat} {name count enabled file : String}

/-- **The parts of a row stand in their columns**, if the name has room in its one. -/
theorem aligned_tableRow (hname : name.length ≤ width) (henabled : enabled.length ≤ 8) :
    Aligned width name count enabled file (tableRow width name count enabled file) := by
  -- the row in four parts, each of them as long as its column
  obtain ⟨first, hfirst⟩ : ∃ cs, cs = (fillRight width name).toList := ⟨_, rfl⟩
  obtain ⟨second, hsecond⟩ : ∃ cs, cs = [' ', ' '] ++ (fillLeft 10 count).toList := ⟨_, rfl⟩
  obtain ⟨third, hthird⟩ : ∃ cs, cs = [' ', ' '] ++ (fillRight 8 enabled).toList ++ [' ', ' '] :=
    ⟨_, rfl⟩
  have hrow : (tableRow width name count enabled file).toList =
      first ++ (second ++ (third ++ (file.toList ++ ['\n']))) := by
    rw [hfirst, hsecond, hthird]
    simp [tableRow]
  have hfirstLength : first.length = width := by rw [hfirst, length_fillRight hname]
  have hsecondLength : second.length = 12 + overhang count := by
    rw [hsecond, List.length_append, length_fillLeft, overhang]
    simp only [List.length_cons, List.length_nil]
    omega
  have hthirdLength : third.length = 12 := by
    rw [hthird, List.length_append, List.length_append, length_fillRight henabled]
    rfl
  have hdrop : (tableRow width name count enabled file).toList.drop width =
      second ++ (third ++ (file.toList ++ ['\n'])) := by
    rw [hrow, List.drop_left' hfirstLength]
  have hdrop' : (tableRow width name count enabled file).toList.drop (width + 12 + overhang count) =
      third ++ (file.toList ++ ['\n']) := by
    rw [Nat.add_assoc, ← List.drop_drop, hdrop, List.drop_left' hsecondLength]
  refine ⟨?_, ?_, ?_, ?_, ?_⟩
  · rw [hrow, List.take_left' hfirstLength, hfirst, toList_fillRight]
  · have hblanks : 12 + overhang count - count.length = 2 + (10 - count.length) := by
      rw [overhang]
      omega
    rw [hdrop, List.take_left' hsecondLength, hsecond, toList_fillLeft, hblanks,
      List.replicate_add, List.append_assoc]
    rfl
  · have hblanks : 10 - enabled.length = (8 - enabled.length) + 2 := by omega
    rw [hdrop', List.take_left' hthirdLength, hthird, toList_fillRight, hblanks,
      List.replicate_add]
    simp
  · have hsum : width + 24 + overhang count = width + 12 + overhang count + 12 := by omega
    rw [hsum, ← List.drop_drop, hdrop', List.drop_left' hthirdLength]
  · rw [← String.length_toList, hrow, List.length_append, List.length_append, List.length_append,
      List.length_append, hfirstLength, hsecondLength, hthirdLength, String.length_toList,
      List.length_singleton]
    omega

/-- A count has room in its column if it has at most ten digits. -/
theorem overhang_toString_eq_zero_iff (n : Nat) : overhang (toString n) = 0 ↔ n < 10 ^ 10 := by
  rw [overhang, Nat.sub_eq_zero_iff_le, ← String.length_toList, Nat.toString_eq_repr,
    Nat.toList_repr, Nat.length_toDigits_le_iff (by decide) (by decide)]

namespace PresetSet

/-! ### The first column -/

/-- The widest of some names and a width to begin with. -/
theorem foldl_width_spec (names : List String) (width : Nat) :
    width ≤ names.foldl (fun w n => max w n.utf8ByteSize) width ∧
      (∀ n ∈ names, n.utf8ByteSize ≤ names.foldl (fun w n => max w n.utf8ByteSize) width) ∧
      (names.foldl (fun w n => max w n.utf8ByteSize) width = width ∨
        ∃ n ∈ names, names.foldl (fun w n => max w n.utf8ByteSize) width = n.utf8ByteSize) := by
  induction names generalizing width with
  | nil => simp
  | cons n names ih =>
      obtain ⟨hwidth, hnames, hwidest⟩ := ih (max width n.utf8ByteSize)
      rw [List.foldl_cons]
      refine ⟨Nat.le_trans (Nat.le_max_left _ _) hwidth, ?_, ?_⟩
      · rw [List.forall_mem_cons]
        exact ⟨Nat.le_trans (Nat.le_max_right _ _) hwidth, hnames⟩
      · rcases hwidest with hwidest | ⟨m, hm, hwidest⟩
        · rcases Nat.le_total n.utf8ByteSize width with hle | hle
          · exact .inl (hwidest.trans (Nat.max_eq_left hle))
          · exact .inr ⟨n, List.mem_cons_self, hwidest.trans (Nat.max_eq_right hle)⟩
        · exact .inr ⟨m, List.mem_cons_of_mem n hm, hwidest⟩

/-- The first column is as wide as the bytes of the longest name, and at least as its title. -/
theorem nameWidth_spec (s : PresetSet) :
    4 ≤ s.nameWidth ∧ (∀ p ∈ s.presets, p.name.utf8ByteSize ≤ s.nameWidth) ∧
      (s.nameWidth = 4 ∨ ∃ p ∈ s.presets, s.nameWidth = p.name.utf8ByteSize) := by
  have htitle : "NAME".utf8ByteSize = 4 := by decide
  obtain ⟨hfour, hnames, hwidest⟩ := foldl_width_spec s.names "NAME".utf8ByteSize
  rw [htitle] at hfour hnames hwidest
  rw [nameWidth, htitle]
  refine ⟨hfour, fun p hp => hnames _ (List.mem_map_of_mem hp), ?_⟩
  rcases hwidest with hwidest | ⟨n, hn, hwidest⟩
  · exact .inl hwidest
  · obtain ⟨p, hp, rfl⟩ := List.mem_map.1 hn
    exact .inr ⟨p, hp, hwidest⟩

/-- The row of a preset is aligned with a column that has room for the bytes of its name. -/
theorem aligned_row {width : Nat} {p : Preset} (h : p.name.utf8ByteSize ≤ width) :
    Aligned width p.name (toString p.count) (if p.enabled then "yes" else "no") p.file.text
      (row width p) := by
  refine aligned_tableRow (Nat.le_trans (length_le_utf8ByteSize _) h) ?_
  cases p.enabled <;> decide

end PresetSet

/-! ### The table -/

/-- Showing the table of presets changes nothing, and gives the table of those that the source
defines. -/
theorem run_presetTable {source : Option Path} {s : PresetSet} {w : World}
    (h : Defines w.store source s) :
    (presetTable source : StateM World _).run w = (.ok s.table, w) := by
  have hload : (presetsOf source : StateM World _).run w = (.ok s, w) :=
    Prod.ext (presetsOf_eq_ok_iff.2 h) (run_presetsOf source w)
  rw [presetTable, run_bind, hload]
  rfl

/-- **The layout of the table.**  The table of the presets of a source is a row of titles and then one
row for each preset, in their order.  In all of them the first column is as wide as the bytes of the
longest name, and at least four; it holds the name and blanks only.  The counts end twelve characters
behind it and the files begin twelve further, as their titles do, unless a count has more than ten
digits: then the rest of its row stands as many characters further to the right as there are digits
beyond ten.  Nothing is cut. -/
theorem table_layout {s : PresetSet} (hnames : ∀ p ∈ s.presets, p.name.utf8ByteSize ≤ 65535) :
    ∃ width header rows,
      (4 ≤ width ∧ (∀ p ∈ s.presets, p.name.utf8ByteSize ≤ width) ∧
        (width = 4 ∨ ∃ p ∈ s.presets, width = p.name.utf8ByteSize)) ∧
      width ≤ 65535 ∧
      s.table = header ++ String.join rows ∧
      (Aligned width "NAME" "COUNT" "ENABLED" "FILE" header ∧ overhang "COUNT" = 0) ∧
      List.Forall₂ (fun p row =>
        Aligned width p.name (toString p.count) (if p.enabled then "yes" else "no") p.file.text row ∧
          (overhang (toString p.count) = 0 ↔ p.count < 10 ^ 10)) s.presets rows ∧
      ∀ source (w : World), Defines w.store source s →
        (presetTable source : StateM World _).run w = (.ok s.table, w) := by
  obtain ⟨hfour, hroom, hwidest⟩ := s.nameWidth_spec
  refine ⟨s.nameWidth, tableRow s.nameWidth "NAME" "COUNT" "ENABLED" "FILE",
    s.presets.map (PresetSet.row s.nameWidth), ⟨hfour, hroom, hwidest⟩, ?_, rfl,
    ⟨aligned_tableRow hfour (by decide), by decide⟩, ?_, fun _ _ => run_presetTable⟩
  · rcases hwidest with hwidth | ⟨p, hp, hwidth⟩
    · rw [hwidth]
      decide
    · rw [hwidth]
      exact hnames p hp
  · rw [List.forall₂_map_right_iff, List.forall₂_same]
    exact fun p hp => ⟨PresetSet.aligned_row (hroom p hp), overhang_toString_eq_zero_iff p.count⟩

/-- A short name with a small count above a longer one, of seven characters in eleven bytes, with the
largest count there is, which has ten digits more than its column is wide. -/
theorem table_layout_largest_count :
    ∃ header small large,
      ({ presets := [{ name := "é", file := ⟨"a.json"⟩, count := 3 },
          { name := "naïve-😀", file := ⟨"b.json"⟩, count := 2 ^ 64 - 1 }] } : PresetSet).table =
        header ++ String.join [small, large] ∧
      header.toList.drop 35 = "FILE\n".toList ∧
      small.toList.take 11 = "é          ".toList ∧
      (small.toList.drop 11).take 12 = "           3".toList ∧
      small.toList.drop 35 = "a.json\n".toList ∧
      (large.toList.drop 11).take 22 = "  18446744073709551615".toList ∧
      large.toList.drop 45 = "b.json\n".toList := by
  obtain ⟨width, header, rows, ⟨-, hroom, hwidest⟩, -, htable, ⟨hheader, -⟩, hrows, -⟩ :=
    table_layout (s := { presets := [{ name := "é", file := ⟨"a.json"⟩, count := 3 },
      { name := "naïve-😀", file := ⟨"b.json"⟩, count := 2 ^ 64 - 1 }] }) (by decide)
  have hlong : "naïve-😀".utf8ByteSize ≤ width :=
    hroom { name := "naïve-😀", file := ⟨"b.json"⟩, count := 2 ^ 64 - 1 } (by decide)
  have hwidth : width = 11 := by
    rcases hwidest with rfl | ⟨p, hp, rfl⟩
    · exact absurd hlong (by decide)
    · simp only [List.mem_cons, List.not_mem_nil, or_false] at hp
      rcases hp with rfl | rfl
      · exact absurd hlong (by decide)
      · decide
  subst hwidth
  rcases hrows with _ | ⟨⟨hsmall, -⟩, _ | ⟨⟨hlarge, -⟩, _ | _⟩⟩
  exact ⟨header, _, _, htable, hheader.file_last, hsmall.name_first, hsmall.count_ends,
    hsmall.file_last, hlarge.count_ends, hlarge.file_last⟩

end Roster
